import ProtonDrive.Download.Authentic

/-!
# The manifest of the reference client

* `StreamUploader.getManifest`   what the reference client signs: the hashes of the thumbnails by type,
                                 then those of the blocks by index (`streamUploader.ts`);
* `ofJson_thumbnails`            the record the Rust client reads a revision into has no thumbnails;
* `AgreesWithReference`          the bytes whose signature it checks are the signed ones, and it downloads
                                 the revision with a verified signature whenever it gets the blocks;
* `manifest_agrees`              this holds exactly of the revisions with a block and without thumbnails: it
                                 refuses the empty files that the reference client uploads.
-/

set_option linter.unusedVariables false

namespace ProtonDrive
open Encoding Effects Api

/-! ## the reference client -/

structure UploadedThumbnail where
  type : Nat
  hash : Digest 32

structure UploadedBlock where
  index : Nat
  hash : Digest 32

/-- what a finished upload of the reference client knows of its parts; thumbnails of one type and
blocks of one index are there once -/
structure StreamUploader where
  uploadedThumbnails : List UploadedThumbnail
  uploadedBlocks : List UploadedBlock
  distinctTypes : (uploadedThumbnails.map (·.type)).Nodup
  distinctIndices : (uploadedBlocks.map (·.index)).Nodup

namespace StreamUploader

def thumbnailHashes (u : StreamUploader) : List Bytes :=
  (Sorting.sortByKey (·.type) u.uploadedThumbnails).map (·.hash.1)

def blockHashes (u : StreamUploader) : List Bytes :=
  (Sorting.sortByKey (·.index) u.uploadedBlocks).map (·.hash.1)

def getManifest (u : StreamUploader) : Bytes := (u.thumbnailHashes ++ u.blockHashes).flatten

/-- the server lists the blocks that were uploaded, in any order -/
def Lists (u : StreamUploader) (blocks : List Download.BlockResponse) : Prop :=
  (blocks.map fun b => (b.index, b.hash)).Perm
    (u.uploadedBlocks.map fun b => (b.index, Base64.encode b.hash.1))

end StreamUploader

/-! ## what the Rust client reads -/

/-- thumbnails in the answer change nothing -/
theorem ofJson_thumbnails (thumbnails : Json) (members : List (String × Json)) :
    Download.RevisionWithBlocks.ofJson (.obj (("Thumbnails", thumbnails) :: members)) =
      Download.RevisionWithBlocks.ofJson (.obj members) := by
  have h : ∀ key, "Thumbnails" ≠ key →
      (Json.obj (("Thumbnails", thumbnails) :: members)).member key =
        (Json.obj members).member key := fun key hne => Json.member_cons_ne hne _ _
  unfold Download.RevisionWithBlocks.ofJson
  rw [Json.record_obj, Json.record_obj]
  unfold Json.required Json.optional
  rw [h "ID" (by decide), h "State" (by decide), h "Blocks" (by decide),
    h "ManifestSignature" (by decide), h "ContentKeyPacket" (by decide),
    h "ContentKeyPacketSignature" (by decide), h "XAttr" (by decide),
    h "SignatureEmail" (by decide)]

section
variable {K : Crates} {dl : FileDownloader} {u : StreamUploader}
  {blocks : List Download.BlockResponse}

/-- sorted by index, the listed blocks carry the hashes in the order they were signed in -/
theorem StreamUploader.Lists.hashes (h : u.Lists blocks) :
    (Sorting.sortByKey (·.index) blocks).map (·.hash) = u.blockHashes.map Base64.encode := by
  have hsorted : (Sorting.sortByKey (·.index) blocks).map (fun b => (b.index, b.hash)) =
      (Sorting.sortByKey (·.index) u.uploadedBlocks).map fun b =>
        (b.index, Base64.encode b.hash.1) :=
    Sorting.map_sortByKey_eq _ (k := Prod.fst) (fun _ => rfl) (fun _ => rfl) h u.distinctIndices
  have hsnd := congrArg (List.map Prod.snd) hsorted
  rw [List.map_map, List.map_map] at hsnd
  unfold blockHashes
  rw [List.map_map]
  exact hsnd

theorem manifestOf_lists (h : u.Lists blocks) :
    manifestOf K (Sorting.sortByKey (·.index) blocks) = .ok u.blockHashes.flatten :=
  manifestOf_encoded h.hashes

/-- each thumbnail adds 32 bytes -/
theorem getManifest_eq_iff : u.blockHashes.flatten = u.getManifest ↔ u.uploadedThumbnails = [] := by
  unfold StreamUploader.getManifest
  rw [List.flatten_append]
  constructor
  · intro h
    have hnil : u.thumbnailHashes.flatten = [] := by
      have hlen := congrArg List.length h
      rw [List.length_append] at hlen
      exact List.length_eq_zero_iff.mp (by omega)
    have hall := List.flatten_eq_nil_iff.mp hnil
    by_contra hne
    obtain ⟨t, ht⟩ := List.exists_mem_of_ne_nil _ hne
    have hmem : t.hash.1 ∈ u.thumbnailHashes :=
      List.mem_map.mpr ⟨t, (Sorting.mem_sortByKey _).mpr ht, rfl⟩
    have hlen := t.hash.2
    rw [hall _ hmem] at hlen
    cases hlen
  · intro hnil
    unfold StreamUploader.thumbnailHashes
    rw [hnil]
    rfl

/-! ## the agreement -/

/-- the client checks the signature of the signed bytes, and whenever it is answered with the revision `r` and
its blocks, the download returns `Ok` and says that the signature verified -/
def AgreesWithReference (K : Crates) (dl : FileDownloader) (u : StreamUploader)
    (r : Download.RevisionWithBlocks) : Prop :=
  manifestOf K (Sorting.sortByKey (·.index) r.blocks) = .ok u.getManifest ∧
    ∀ a : Delivery K dl r, ∃ stats, Runs (downloadToWriter K dl).run a.trace (.done (.ok stats)) ∧
      stats.signatureVerified = true

theorem StreamUploader.Lists.nonempty_iff (h : u.Lists blocks) :
    blocks ≠ [] ↔ u.uploadedBlocks ≠ [] := by
  have hlength := h.length_eq
  rw [List.length_map, List.length_map] at hlength
  rw [← List.length_pos_iff, ← List.length_pos_iff, hlength]

/-- a download that returned `Ok` had blocks to fetch -/
theorem Delivery.nonempty {r : Download.RevisionWithBlocks} (a : Delivery K dl r) {stats : DownloadStats}
    (h : Runs (downloadToWriter K dl).run a.trace (.done (.ok stats))) : r.blocks ≠ [] := by
  obtain ⟨f⟩ := downloadToWriter_ok h
  have hnonempty := f.nonempty
  rwa [f.revision_eq rfl a.answered] at hnonempty

theorem manifest_agrees {pair : PrivateKey → PublicKey → Prop} (ideal : IdealCrypto dl.crypto pair)
    {keys : List PublicKey} {signer : PrivateKey} {pub : PublicKey} {c : Coins} {sig : Bytes}
    {r : Download.RevisionWithBlocks} (hkeys : dl.verificationKeys = .ok keys) (hpub : pub ∈ keys)
    (hpair : pair signer pub) (hsigned : dl.crypto.sign u.getManifest signer "" c = .ok sig)
    (hlists : u.Lists r.blocks) (hr : r.manifestSignature = some (armor sig .signature))
    (hcan : Nonempty (Delivery K dl r)) :
    AgreesWithReference K dl u r ↔ u.uploadedThumbnails = [] ∧ u.uploadedBlocks ≠ [] := by
  unfold AgreesWithReference
  constructor
  · intro ⟨hpayload, hdownloads⟩
    have hflatten := (manifestOf_lists hlists).symm.trans hpayload
    refine ⟨getManifest_eq_iff.mp (Except.ok.inj hflatten), ?_⟩
    obtain ⟨a⟩ := hcan
    obtain ⟨stats, hrun, _⟩ := hdownloads a
    exact hlists.nonempty_iff.mp (a.nonempty hrun)
  · intro ⟨hnone, hne⟩
    have hpayload : manifestOf K (Sorting.sortByKey (·.index) r.blocks) = .ok u.getManifest := by
      rw [manifestOf_lists hlists, getManifest_eq_iff.mpr hnone]
    refine ⟨hpayload, fun a => ?_⟩
    refine a.runs (hlists.nonempty_iff.mpr hne) ?_ ?_
    · rw [hr]
      rfl
    · rw [hr]
      exact verifyManifest_signed ideal hpayload hkeys hpub hpair hsigned

end

/-! ## a revision without and one with a thumbnail -/

def plainUploader : StreamUploader where
  uploadedThumbnails := []
  uploadedBlocks := [{ index := 1, hash := (smallCrates []).sha256 smallCiphertext }]
  distinctTypes := List.nodup_nil
  distinctIndices := List.nodup_singleton 1

def thumbUploader : StreamUploader :=
  { plainUploader with
    uploadedThumbnails := [{ type := 1, hash := ⟨List.replicate 32 7, List.length_replicate⟩ }]
    distinctTypes := List.nodup_singleton 1 }

/-- the document of the one block, with the given thumbnails, signed for `u` -/
def revisionOf (thumbnails : List Json) (u : StreamUploader) : Json :=
  smallRevision thumbnails [smallBlock 1] (smallSignature u.getManifest)

def recordOf (u : StreamUploader) : Download.RevisionWithBlocks :=
  smallRecord [smallBlock 1] (smallSignature u.getManifest)

theorem smallBlock_plain : ∀ b ∈ [smallBlock 1], Plain b :=
  List.forall_mem_singleton.mpr ⟨by decide, rfl, rfl⟩

def deliveryOf (thumbnails : List Json) (u : StreamUploader) :
    Delivery (smallCrates [revisionOf thumbnails u]) smallDownloader (recordOf u) :=
  smallDelivery (D := [revisionOf thumbnails u]) (List.nodup_singleton _) (List.mem_singleton.mpr rfl)
    smallBlock_plain (List.forall_mem_singleton.mpr rfl)

theorem plainUploader_agrees :
    AgreesWithReference (smallCrates [revisionOf [] plainUploader]) smallDownloader plainUploader
        (recordOf plainUploader) ↔
      plainUploader.uploadedThumbnails = [] ∧ plainUploader.uploadedBlocks ≠ [] :=
  have hpair : sameFingerprint addressKey { armored := "addr", fingerprintHex := "addr" } := rfl
  manifest_agrees (c := (0 : Nat)) transparent_ideal rfl (List.mem_singleton.mpr rfl) hpair rfl
    (List.Perm.refl _) rfl ⟨deliveryOf [] plainUploader⟩

def thumbDocument : Json := .obj [("Hash", .str (Base64.encode (List.replicate 32 7)))]

def thumbCrates : Crates := smallCrates [revisionOf [thumbDocument] thumbUploader]

theorem thumbUploader_lists : thumbUploader.Lists (recordOf thumbUploader).blocks := List.Perm.refl _

/-- what is checked is the digest of the block, and what was signed is longer by that of the thumbnail -/
theorem thumbUploader_unverified :
    verifyManifest thumbCrates smallDownloader
      (Sorting.sortByKey (·.index) (recordOf thumbUploader).blocks)
      (recordOf thumbUploader).manifestSignature = .ok false := by
  have hlonger : ¬ thumbUploader.getManifest = thumbUploader.blockHashes.flatten := by
    intro h
    cases getManifest_eq_iff.mp h.symm
  refine (smallSignature_checked (manifestOf_lists thumbUploader_lists) _).trans ?_
  rw [decide_eq_false hlonger]

/-- the revision is signed over its thumbnail and its block; with the answers to it the download returns `Ok` and
says that the signature did not verify -/
theorem thumbRun_breaks_agreement :
    ¬ AgreesWithReference thumbCrates smallDownloader thumbUploader (recordOf thumbUploader) ∧
      thumbUploader.Lists (recordOf thumbUploader).blocks ∧
      ∃ stats, Runs (downloadToWriter thumbCrates smallDownloader).run
          (deliveryOf [thumbDocument] thumbUploader).trace (.done (.ok stats)) ∧
        stats.signatureVerified = false := by
  refine ⟨?_, thumbUploader_lists, ?_⟩
  · intro ⟨hpayload, _⟩
    have hsigned := (manifestOf_lists thumbUploader_lists).symm.trans hpayload
    cases getManifest_eq_iff.mp (Except.ok.inj hsigned)
  · exact (deliveryOf [thumbDocument] thumbUploader).runs (List.cons_ne_nil _ _) rfl
      thumbUploader_unverified

/-! ## an empty file -/

/-- an upload that has nothing to store and is committed like any other -/
def emptyUploader : StreamUploader where
  uploadedThumbnails := []
  uploadedBlocks := []
  distinctTypes := List.nodup_nil
  distinctIndices := List.nodup_nil

/-- the revision of an empty file is refused, however it is signed -/
theorem emptyUploader_refused {K : Crates} {dl : FileDownloader} {r : Download.RevisionWithBlocks}
    (hlists : emptyUploader.Lists r.blocks) (a : Delivery K dl r) (stats : DownloadStats) :
    ¬ Runs (downloadToWriter K dl).run a.trace (.done (.ok stats)) :=
  fun hrun => hlists.nonempty_iff.mp (a.nonempty hrun) rfl

end ProtonDrive
