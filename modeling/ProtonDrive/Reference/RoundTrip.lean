import Mathlib.Data.List.Forall2
import ProtonDrive.Reference.DownloadComplete
import ProtonDrive.Reference.UploadCommit

/-!
# From the uploader to the downloader of the reference client

The downloader knows of the commit only the manifest, which is signed.  It hashes what it fetches, but it
does not look at how many blocks there are, and it takes the indexes and the renewed tokens of the server as
they are.

* `texts_split`         the hashes of the manifest are those of the thumbnails, and then those of the blocks;
* `manifest_ends`       a manifest that was verified ends with the digests of what was fetched for the chunks;
* `SharedCrypto`, `HonestListing`
                        the crypto of both sides, and what is left to the server;
* `reference_round_trip`
                        what is written is the chunks that were read for the upload, all of them and in order.
-/

set_option linter.unusedVariables false

namespace ProtonDrive.Reference
open Encoding Paths Chunking

/-! ## thumbnails first -/

def DownloadEvent.thumbnailTexts : DownloadEvent → List String
  | .listBlocks n (.ok p) => firstTexts n p
  | _ => []

def thumbnailTexts (l : List DownloadEvent) : List String := l.flatMap DownloadEvent.thumbnailTexts

/-- no page that is asked for behind the blocks is the first -/
def Flush.Onward : Flush → Prop
  | .page n _ => n ≠ 1
  | .last => True

/-- the first page is listed once, and before all others -/
def DownloadMain.Onward (l : List DownloadEvent) : DownloadMain → Prop
  | .gettingKeys => listedBlocks l = []
  | .listing n => n = 1 → listedBlocks l = []
  | .racing behind _ | .writing behind _ _ => behind.Onward
  | _ => True

/-- the hashes of the thumbnails, and then those of the blocks -/
def ThumbnailsFirst (l : List DownloadEvent) : Prop :=
  hashTexts l = thumbnailTexts l ++ (listedBlocks l).map BlockMetadata.base64sha256Hash

section
variable {J : DownloadJob} {l : List DownloadEvent} {e : DownloadEvent} {s s' : FileDownloader J}
  {behind : Flush} {n : Nat} {m : BlockMetadata} {rest : List BlockMetadata}

theorem blockListed_onward (x : FileDownloader J × Option Thrown) :
    (FileDownloader.blockListed m rest x).main.Onward l := by
  unfold FileDownloader.blockListed
  split <;> trivial

theorem iterate_onward (s : FileDownloader J) (hn : n = 1 → listedBlocks l = [])
    (rest : List BlockMetadata) : (s.iterate n rest).main.Onward l := by
  cases rest with
  | nil =>
    show (if s.aborted then s.listed else s.await (.listing n)).main.Onward l
    split
    · trivial
    · exact hn
  | cons m rest => exact blockListed_onward _

theorem downloaded_onward (s : FileDownloader J) : s.downloaded.main.Onward l := by
  unfold FileDownloader.downloaded
  split
  · trivial
  · split
    · trivial
    · split <;> trivial

theorem flushCompletedBlocks_onward (s : FileDownloader J) (h : behind.Onward) :
    (s.flushCompletedBlocks behind).main.Onward l := by
  unfold FileDownloader.flushCompletedBlocks
  split
  · exact h
  · cases behind with
    | page n rest => exact iterate_onward s (fun hn => absurd hn h) rest
    | last => exact downloaded_onward s

theorem waitForNextBlock_onward (s : FileDownloader J) (h : behind.Onward) :
    (s.waitForNextBlock behind).main.Onward l := by
  unfold FileDownloader.waitForNextBlock
  split
  · exact flushCompletedBlocks_onward s h
  · split
    · exact flushCompletedBlocks_onward s h
    · exact h

theorem waitForDownloadCapacity_onward (s : FileDownloader J) (h : behind.Onward) :
    (s.waitForDownloadCapacity behind).main.Onward l := by
  unfold FileDownloader.waitForDownloadCapacity
  split
  · exact waitForNextBlock_onward s h
  · exact flushCompletedBlocks_onward s h

theorem pageListed_onward (s : FileDownloader J) (n : Nat) (p : RevisionPage) :
    (s.pageListed n p).main.Onward l := by
  unfold FileDownloader.pageListed FileDownloader.blocksListed
  split
  · trivial
  · cases p.blocks with
    | nil => trivial
    | cons m rest => exact blockListed_onward _

theorem manifestChecked_onward (s : FileDownloader J) (check : ManifestCheck) :
    (s.manifestChecked check).main.Onward l := by
  cases check <;> trivial

theorem DownloadMain.Onward.grow {main : DownloadMain} (h : main.Onward l) (he : e.Quiet) :
    main.Onward (l ++ [e]) := by
  have hlisted := he.listedBlocks (l := l)
  cases main with
  | gettingKeys => exact hlisted.trans h
  | listing n => exact fun hn => hlisted.trans (h hn)
  | racing behind promises => exact h
  | writing behind chunk retried => exact h
  | _ => trivial

theorem DownloadMainStep.onward (hs : DownloadMainStep s e s') (h : s.main.Onward l) (hd : Downloads l s)
    (hpos : ∀ m ∈ listedBlocks l, 1 ≤ m.index) : s'.main.Onward (l ++ [e]) := by
  cases hs with
  | keys hmain =>
    rw [hmain] at h
    exact iterate_onward s (fun _ => (DownloadEvent.Quiet.listedBlocks ⟨rfl, rfl, rfl⟩).trans h) []
  | listed hmain => exact pageListed_onward s _ _
  | @unpaused m rest hmain hpaused =>
    -- the block is one of the listing
    have hat := hd.at_
    rw [hmain] at hat
    have hindex := hpos m (Listed.head_mem hat)
    exact waitForDownloadCapacity_onward _ (show m.index + 1 ≠ 1 by omega)
  | raced hmain hpromise hcall hphase =>
    rw [hmain] at h
    exact waitForNextBlock_onward s h
  | written hmain =>
    rw [hmain] at h
    exact flushCompletedBlocks_onward _ h
  | rewritten hmain =>
    rw [hmain] at h
    exact h
  | allAwaited hmain hall =>
    have hlast : Flush.last.Onward := trivial
    exact flushCompletedBlocks_onward s hlast
  | manifestChecked hmain => exact manifestChecked_onward s _
  | _ => trivial

theorem DownloadStep.onward (hs : DownloadStep s e s') (h : s.main.Onward l) (hd : Downloads l s)
    (hpos : ∀ m ∈ listedBlocks l, 1 ≤ m.index) : s'.main.Onward (l ++ [e]) := by
  cases hs with
  | main hs => exact hs.onward h hd hpos
  | block _ hs =>
    have hmain := hs.main_eq
    exact hmain ▸ h.grow hs.quiet
  | pause => exact h.grow ⟨rfl, rfl, rfl⟩
  | resume => exact h.grow ⟨rfl, rfl, rfl⟩
  | abort => exact h.grow ⟨rfl, rfl, rfl⟩

/-- a page is listed where it was asked for -/
theorem DownloadStep.listBlocks_inv {p : RevisionPage} (hs : DownloadStep s (.listBlocks n (.ok p)) s') :
    s.main = .listing n := by
  cases hs with
  | main hs =>
    cases hs with
    | listed hmain => exact hmain
  | block _ hs => cases hs

theorem thumbnailTexts_concat (l : List DownloadEvent) (e : DownloadEvent) :
    thumbnailTexts (l ++ [e]) = thumbnailTexts l ++ e.thumbnailTexts := by
  unfold thumbnailTexts
  rw [List.flatMap_append, List.flatMap_singleton]

theorem ThumbnailsFirst.page {p : RevisionPage} (h : ThumbnailsFirst l) (hn : n = 1 → listedBlocks l = []) :
    ThumbnailsFirst (l ++ [paged n p]) := by
  have htexts : (paged n p).hashTexts = firstTexts n p ++ p.blocks.map BlockMetadata.base64sha256Hash := rfl
  have hthumbnails : (paged n p).thumbnailTexts = firstTexts n p := rfl
  have hblocks : (paged n p).blocks = p.blocks := rfl
  unfold ThumbnailsFirst at h ⊢
  rw [hashTexts_concat, thumbnailTexts_concat, listedBlocks_concat, htexts, hthumbnails, hblocks, h,
    List.map_append]
  by_cases hfirst : n = 1
  · rw [hn hfirst]
    simp only [List.map_nil, List.append_nil, List.nil_append, List.append_assoc]
  · have hnone : firstTexts n p = [] := if_neg hfirst
    simp only [hnone, List.append_nil, List.nil_append, List.append_assoc]

theorem DownloadStep.thumbnailsFirst (hs : DownloadStep s e s') (h : s.main.Onward l)
    (hfirst : ThumbnailsFirst l) : ThumbnailsFirst (l ++ [e]) := by
  have hquiet : e.hashTexts = [] → e.thumbnailTexts = [] → e.blocks = [] → ThumbnailsFirst (l ++ [e]) := by
    intro htexts hthumbnails hblocks
    unfold ThumbnailsFirst at hfirst ⊢
    rw [hashTexts_concat, thumbnailTexts_concat, listedBlocks_concat, htexts, hthumbnails, hblocks, hfirst,
      List.append_nil, List.append_nil, List.append_nil]
  cases e with
  | listBlocks n answer =>
    cases answer with
    | error e => exact hquiet rfl rfl rfl
    | ok p =>
      rw [hs.listBlocks_inv] at h
      exact hfirst.page h
  | _ => exact hquiet rfl rfl rfl

theorem texts_split (h : Path DownloadStep (FileDownloader.start J) l s)
    (hpos : ∀ m ∈ listedBlocks l, 1 ≤ m.index) : ThumbnailsFirst l := by
  have hinv : Downloads l s ∧
      ((∀ m ∈ listedBlocks l, 1 ≤ m.index) → s.main.Onward l ∧ ThumbnailsFirst l) := by
    refine h.recorded (I := fun l s => Downloads l s ∧
      ((∀ m ∈ listedBlocks l, 1 ≤ m.index) → s.main.Onward l ∧ ThumbnailsFirst l)) ?_
      ⟨start_downloads J, fun _ => ⟨rfl, rfl⟩⟩
    intro l s e s' ⟨hd, h⟩ hs
    refine ⟨hs.keeps hd, fun hpos => ?_⟩
    rw [listedBlocks_concat] at hpos
    have hpos : ∀ m ∈ listedBlocks l, 1 ≤ m.index := fun m hm => hpos m (List.mem_append_left _ hm)
    obtain ⟨hmain, hfirst⟩ := h hpos
    exact ⟨hs.onward hmain hd hpos, hs.thumbnailsFirst hmain hfirst⟩
  exact (hinv.2 hpos).2

end

/-! ## what a verified manifest says -/

section
variable {J : DownloadJob} {l : List DownloadEvent} {s : FileDownloader J}

def InOrder (l : List DownloadEvent) : Prop := (listedBlocks l).Pairwise fun a b => a.index < b.index

theorem AllWritten.indexes_eq (h : AllWritten l) (hordered : InOrder l) :
    (listedBlocks l).map BlockMetadata.index = List.range' 1 (written l).length := by
  refine keys_of_strict hordered ?_
  have hnodup : ((listedBlocks l).map BlockMetadata.index).Nodup :=
    List.pairwise_map.mpr (hordered.imp Nat.ne_of_lt)
  refine (List.perm_ext_iff_of_nodup hnodup List.nodup_range').mpr fun i => ?_
  rw [h.indexes, List.mem_range'_1]
  omega

theorem AllWritten.listed_length (h : AllWritten l) (hordered : InOrder l) :
    (listedBlocks l).length = (written l).length := by
  rw [← List.length_map (f := BlockMetadata.index), h.indexes_eq hordered, List.length_range']

theorem AllWritten.listed_at (h : AllWritten l) (hordered : InOrder l) {m : BlockMetadata} {k : Nat}
    (hm : m ∈ listedBlocks l) (hindex : m.index = k + 1) : (listedBlocks l)[k]? = some m := by
  obtain ⟨j, hj⟩ := List.getElem?_of_mem hm
  have hget := congrArg (fun is : List Nat => is[j]?) (h.indexes_eq hordered)
  have hlt : j < (written l).length := by
    rw [← h.listed_length hordered]
    exact (List.getElem?_eq_some_iff.mp hj).1
  rw [List.getElem?_map, hj, List.getElem?_range' hlt] at hget
  have hget : m.index = 1 + 1 * j := Option.some.inj hget
  obtain rfl : j = k := by omega
  exact hj

/-- the text of a listed block is what its bytes were checked against -/
theorem Authentic.fetched {k : Nat} {chunk : Bytes} (h : Authentic J l (k + 1) chunk) (hall : AllWritten l)
    (hordered : InOrder l) (hsteady : Steady l) (hintegrity : J.ignoreIntegrityErrors = false) :
    ∃ m encryptedBlock bareUrl token, (listedBlocks l)[k]? = some m ∧
      m.base64sha256Hash = Base64.encode (J.sha256 encryptedBlock) ∧
      .downloadBlock bareUrl token (.ok encryptedBlock) ∈ l ∧ .decryptBlock encryptedBlock (.ok chunk) ∈ l := by
  obtain ⟨encryptedBlock, ⟨m, hm, hfetched, hhash⟩, hdecrypt⟩ := h
  obtain ⟨m₀, hm₀, hindex, hsame, _⟩ := hm.steady hsteady
  exact ⟨m₀, encryptedBlock, _, _, hall.listed_at hordered hm₀ hindex, hsame.trans (hhash hintegrity).symm,
    hfetched, hdecrypt⟩

theorem hashed_at {texts : List String} {hashes : List Bytes} (h : List.Forall₂ hashedAs texts hashes)
    {k : Nat} {hash : Bytes} (htext : texts[k]? = some (Base64.encode hash)) : hashes[k]? = some hash := by
  induction h generalizing k with
  | nil => cases htext
  | cons hd _ ih =>
    cases k with
    | zero =>
      rw [List.getElem?_cons_zero] at htext ⊢
      unfold hashedAs at hd
      rw [Option.some.inj htext, Base64.decodeLoose_encode] at hd
      exact hd.symm
    | succ k => exact ih htext

/-- the manifest ends with a digest for each chunk that was written -/
structure EndsWith (J : DownloadJob) (l : List DownloadEvent) (manifest : Bytes)
    (digests : List Bytes) : Prop where
  suffix : ∃ pre, manifest = pre ++ digests.flatten
  length : digests.length = (written l).length
  digest : ∀ (k : Nat) chunk, (written l)[k]? = some chunk → ∃ encryptedBlock bareUrl token,
    digests[k]? = some (J.sha256 encryptedBlock) ∧ .downloadBlock bareUrl token (.ok encryptedBlock) ∈ l ∧
      .decryptBlock encryptedBlock (.ok chunk) ∈ l

theorem manifest_ends (h : Path DownloadStep (FileDownloader.start J) (l ++ [.onFinish (.ok ())]) s)
    (hintegrity : J.ignoreIntegrityErrors = false) (hmanifest : J.ignoreManifestVerification = false)
    (hordered : InOrder l) (hsteady : Steady l) :
    ∃ manifest signature digests, .verifyManifest manifest signature .verified ∈ l ∧
      EndsWith J l manifest digests := by
  obtain ⟨s₁, hrun, _⟩ := h.concat_inv
  have hsuccess := (Settled.of_run h).2 rfl
  obtain ⟨hashes, signature, hverified⟩ := hsuccess.manifest hintegrity hmanifest
  have hpos : ∀ m ∈ listedBlocks l, 1 ≤ m.index := fun m hm =>
    ((hsuccess.indexes m.index).mp (List.mem_map_of_mem hm)).1
  have hsplit : hashTexts l = _ := texts_split hrun hpos
  have hdecoded := hverified.decoded
  rw [hsplit] at hdecoded
  have hdigests := List.forall₂_drop (thumbnailTexts l).length hdecoded
  rw [List.drop_left] at hdigests
  refine ⟨hashes.flatten, signature, hashes.drop (thumbnailTexts l).length, hverified.verified,
    ⟨(hashes.take (thumbnailTexts l).length).flatten, ?_⟩, ?_, fun k chunk hk => ?_⟩
  · rw [← List.flatten_append, List.take_append_drop]
  · rw [← hdigests.length_eq, List.length_map, hsuccess.listed_length hordered]
  · obtain ⟨m, encryptedBlock, bareUrl, token, hm, htext, hfetched, hdecrypt⟩ :=
      ((download_inv hrun).delivering.written k chunk hk).fetched hsuccess.toAllWritten hordered hsteady
        hintegrity
    refine ⟨encryptedBlock, bareUrl, token, hashed_at hdigests ?_, hfetched, hdecrypt⟩
    rw [List.getElem?_map, hm, ← htext]
    rfl

end

/-! ## both sides -/

/-- lists of as many items of one length, at the end of two equal lists -/
theorem suffix_eq_of_length {α : Type} {n : Nat} {pre pre' : List α} {as bs : List (List α)}
    (has : ∀ a ∈ as, a.length = n) (hbs : ∀ b ∈ bs, b.length = n) (hlength : as.length = bs.length)
    (h : pre ++ as.flatten = pre' ++ bs.flatten) : as = bs := by
  have hsizes : as.map List.length = bs.map List.length := by
    rw [List.map_congr_left has, List.map_congr_left hbs, List.map_const', List.map_const', hlength]
  have htotal : as.flatten.length = bs.flatten.length := by
    rw [List.length_flatten, List.length_flatten, hsizes]
  exact List.eq_iff_flatten_eq.mpr ⟨List.append_inj_right' h htotal, hsizes⟩

/-- the crypto of both sides, as far as the two runs have made use of it -/
structure SharedCrypto (U : UploadJob) (D : DownloadJob) (lu : List UploadEvent) (ld : List DownloadEvent)
    (c : Commit) : Prop where
  sha256 : D.sha256 = U.sha256
  digests : ∀ data, (U.sha256 data).length = 32
  collisionFree : ∀ address stored bareUrl token fetched, .uploadBlock address stored (.ok ()) ∈ lu →
    .downloadBlock bareUrl token (.ok fetched) ∈ ld → U.sha256 fetched = U.sha256 stored → fetched = stored
  decrypts : ∀ block encryptedData armoredSignature data,
    .encryptBlock block (.ok (encryptedData, armoredSignature)) ∈ lu →
      .decryptBlock encryptedData (.ok data) ∈ ld → data = block
  /-- nobody else has signed a manifest with the key -/
  signed : ∀ manifest signature, .verifyManifest manifest signature .verified ∈ ld → manifest = c.manifest

/-- what the downloader leaves to the server -/
structure HonestListing (c : Commit) (ld : List DownloadEvent) : Prop where
  ordered : InOrder ld
  counted : (listedBlocks ld).length = c.blockSizes.length
  steady : Steady ld

section
variable {U : UploadJob} {D : DownloadJob} {lu : List UploadEvent} {ld : List DownloadEvent} {c : Commit}
  {su : StreamUploader U} {sd : FileDownloader D} {chunks : List Bytes} {blocks : List EncryptedBlock}
  {thumbnails : List EncryptedThumbnail} {manifest : Bytes} {digests : List Bytes}

theorem Encrypted.hash_eq {b : EncryptedBlock} (h : Encrypted U lu chunks b) :
    b.hash = U.sha256 b.encryptedData := by
  obtain ⟨_, _, _, _, _, hb⟩ := h
  exact congrArg EncryptedBlock.hash hb

/-- the digests of what was fetched are those of what was stored -/
theorem digests_eq (hcommitted : Committed U lu c chunks blocks thumbnails)
    (hends : EndsWith D ld c.manifest digests) (hcrypto : SharedCrypto U D lu ld c)
    (hlength : blocks.length = (written ld).length) : digests = blocks.map EncryptedBlock.hash := by
  obtain ⟨pre, hpre⟩ := hends.suffix
  have hdigests : pre ++ digests.flatten =
      (thumbnails.map EncryptedThumbnail.hash).flatten ++ (blocks.map EncryptedBlock.hash).flatten := by
    rw [← hpre, hcommitted.manifest, List.flatten_append]
  refine suffix_eq_of_length (n := 32) (fun d hd => ?_) (fun d hd => ?_) ?_ hdigests
  · obtain ⟨k, hk⟩ := List.getElem?_of_mem hd
    have hlt := (List.getElem?_eq_some_iff.mp hk).1
    rw [hends.length] at hlt
    obtain ⟨encryptedBlock, _, _, hdigest, _⟩ := hends.digest k _ (List.getElem?_eq_getElem hlt)
    rw [hdigest, hcrypto.sha256] at hk
    exact Option.some.inj hk ▸ hcrypto.digests _
  · obtain ⟨b, hb, rfl⟩ := List.mem_map.mp hd
    rw [(hcommitted.stored b hb).1.hash_eq]
    exact hcrypto.digests _
  · rw [hends.length, List.length_map, hlength]

/-- a chunk that is written is the one that was read -/
theorem chunk_eq (hcommitted : Committed U lu c chunks blocks thumbnails)
    (heverything : Everything U lu c chunks blocks thumbnails) (hends : EndsWith D ld c.manifest digests)
    (hcrypto : SharedCrypto U D lu ld c) (hdigests : digests = blocks.map EncryptedBlock.hash) {k : Nat}
    {chunk : Bytes} (hk : (written ld)[k]? = some chunk) : chunks[k]? = some chunk := by
  obtain ⟨fetched, bareUrl, token, hdigest, hfetched, hdecrypt⟩ := hends.digest k chunk hk
  rw [hdigests, List.getElem?_map] at hdigest
  obtain ⟨b, hb, hhash⟩ := Option.map_eq_some_iff.mp hdigest
  obtain ⟨hencrypted, address, hstored⟩ := hcommitted.stored b (List.mem_of_getElem? hb)
  have hsame : fetched = b.encryptedData := by
    refine hcrypto.collisionFree _ _ _ _ _ hstored hfetched ?_
    rw [← hencrypted.hash_eq, hhash, hcrypto.sha256]
  have hindex : b.index = k + 1 := by
    have hget := congrArg (fun is : List Nat => is[k]?) heverything.indexes
    have hlt : k < chunks.length := by
      have hlength := congrArg List.length heverything.indexes
      rw [List.length_map, List.length_range'] at hlength
      rw [← hlength]
      exact (List.getElem?_eq_some_iff.mp hb).1
    rw [List.getElem?_map, hb, List.getElem?_range' hlt] at hget
    have hget : b.index = 1 + 1 * k := Option.some.inj hget
    omega
  obtain ⟨block, _, hchunk, hencrypt, _, _⟩ := hencrypted
  rw [hindex, Nat.add_sub_cancel] at hchunk
  have hdecrypted := hcrypto.decrypts block _ _ chunk hencrypt (hsame ▸ hdecrypt)
  rw [hchunk, hdecrypted]

theorem reference_round_trip
    (hupload : Path Step (StreamUploader.start U) (lu ++ [.commitDraft c]) su)
    (hexpected : (delivered lu).length ≤ U.metadata.expectedSize)
    (hdownload : Path DownloadStep (FileDownloader.start D) (ld ++ [.onFinish (.ok ())]) sd)
    (hintegrity : D.ignoreIntegrityErrors = false) (hmanifest : D.ignoreManifestVerification = false)
    (hcrypto : SharedCrypto U D lu ld c) (hserver : HonestListing c ld) :
    Whole U.chunkSize lu (written ld) ∧ c.blockSizes = (written ld).map List.length := by
  obtain ⟨s₁, a, hcore, hfinished, hcommit⟩ := commit_finished hupload
  obtain ⟨blocks, thumbnails, hcommitted, hblocks, _⟩ := hfinished.committed hcore rfl
  rw [← hcommit] at hcommitted
  have heverything := hcommitted.everything (fun b hb => hcore.blocks b (List.mem_append_right _ hb))
    hfinished.complete.blocks (pushedBlocks_sublist s₁.uploads) hblocks hexpected
  obtain ⟨manifest, signature, digests, hverified, hends⟩ :=
    manifest_ends hdownload hintegrity hmanifest hserver.ordered hserver.steady
  obtain rfl := hcrypto.signed manifest signature hverified
  have hall := ((Settled.of_run hdownload).2 rfl).toAllWritten
  have hlength : (written ld).length = s₁.digests.updates.length := by
    rw [← hall.listed_length hserver.ordered, hserver.counted, heverything.blockSizes, List.length_map]
  have hcount : blocks.length = s₁.digests.updates.length := by
    have hindexes := congrArg List.length heverything.indexes
    rwa [List.length_map, List.length_range'] at hindexes
  have hdigests := digests_eq hcommitted hends hcrypto (hcount.trans hlength.symm)
  have hchunks : written ld = s₁.digests.updates := by
    refine List.ext_getElem hlength fun k hk hk' => ?_
    have hchunk := chunk_eq hcommitted heverything hends hcrypto hdigests (List.getElem?_eq_getElem hk)
    rw [List.getElem?_eq_getElem hk'] at hchunk
    exact (Option.some.inj hchunk).symm
  rw [hchunks]
  exact ⟨hcommitted.whole, heverything.blockSizes⟩

end

/-! ## the file with a thumbnail -/

def pictureThumbnail : Thumbnail where
  type := .type1
  thumbnail := [7]

def pictureUploadJob : UploadJob where
  metadata := { expectedSize := 3, expectedSha1 := none, modificationTime := none, additionalMetadata := none }
  thumbnails := [pictureThumbnail]
  verificationCode := [1]
  sha1 := padded
  sha256 := padded
  chunkSize := 2
  pos := Nat.two_pos

def thumbnailToken : UploadToken ThumbnailType := ⟨.type1, "url", "token"⟩
def thumbnailAddress : UploadToken UploadKey := ⟨.thumbnail .type1, "url", "token"⟩

/-- the parts are stored from the last to the first -/
def pictureUpload : List UploadEvent :=
  [.encryptThumbnail pictureThumbnail (.ok [9]), .read [1], .resumed, .read [2, 3], .resumed, .resumed,
   .encryptBlock [1, 2] (.ok ([10], "sig")), .decryptBlock [10] (.ok ()), .readDone, .resumed, .resumed,
   .encryptBlock [3] (.ok ([11], "sig")), .decryptBlock [11] (.ok ()), .resumed, .resumed,
   .requestBlockUpload
      { contentBlocks := [⟨1, "sig", [1 ^^^ 10]⟩, ⟨2, "sig", [1 ^^^ 11]⟩], thumbnails := [.type1] }
      (.ok { blockTokens := [blockToken 1, blockToken 2], thumbnailTokens := [thumbnailToken] }),
   .uploadBlock (blockAddress 2) [11] (.ok ()), .resumed, .uploadBlock (blockAddress 1) [10] (.ok ()), .resumed,
   .uploadBlock thumbnailAddress [9] (.ok ()), .resumed, .resumed, .resumed, .resumed]

theorem pictureUpload_runs :
    ∃ c s, Path Step (StreamUploader.start pictureUploadJob) (pictureUpload ++ [.commitDraft c]) s ∧
      c.manifest = [padded [9], padded [10], padded [11]].flatten ∧ c.blockSizes = [2, 1] :=
  ⟨_, _, .cons (.main (.thumbnailEncrypted rfl)) <| .cons (.encryptor (.read rfl)) <|
    .cons (.main (.unpaused rfl (.inl rfl))) <| .cons (.encryptor (.read rfl)) <|
    .cons (.encryptor (.unpaused rfl (.inl rfl))) <|
    .cons (.encryptor (.buffered rfl (.inl (by decide)))) <| .cons (.encryptor (.encrypted rfl)) <|
    .cons (.encryptor (.verified rfl)) <| .cons (.encryptor (.readDone rfl)) <|
    .cons (.encryptor (.unpaused rfl (.inl rfl))) <|
    .cons (.encryptor (.buffered rfl (.inl (by decide)))) <| .cons (.encryptor (.encrypted rfl)) <|
    .cons (.encryptor (.verified rfl)) <| .cons (.encryptor (.caught rfl)) <|
    .cons (.main (.polled rfl (.inr (.inl rfl)))) <| .cons (.main (.initiated rfl)) <|
    .cons (.upload (show _ = [_, _] ++ _ :: [] from rfl) (.sent rfl)) <|
    .cons (.upload (show _ = [_, _] ++ _ :: [] from rfl) (.settled rfl)) <|
    .cons (.upload (show _ = [_] ++ _ :: [_] from rfl) (.sent rfl)) <|
    .cons (.upload (show _ = [_] ++ _ :: [_] from rfl) (.settled rfl)) <|
    .cons (.upload (show _ = [] ++ _ :: [_, _] from rfl) (.sent rfl)) <|
    .cons (.upload (show _ = [] ++ _ :: [_, _] from rfl) (.settled rfl)) <|
    .cons (.main (.encryptionAwaited rfl rfl)) <|
    .cons (.main (.uploadsAwaited rfl nofun)) <|
    .cons (.main (.thumbnailsHashed rfl)) <| .one (.main (.blocksHashed rfl)), by decide, by decide⟩

theorem padded_length (data : Bytes) : (padded data).length = 32 := by
  unfold padded
  rw [List.length_take, List.length_append, List.length_replicate]
  omega

theorem picture_crypto {c : Commit} (h : c.manifest = [padded [9], padded [10], padded [11]].flatten) :
    SharedCrypto pictureUploadJob (pictureDownloadJob padded) pictureUpload (pictureDownload padded) c where
  sha256 := rfl
  digests := padded_length
  collisionFree address stored bareUrl token fetched hstored hfetched := by
    have hstored : stored = [9] ∨ stored = [10] ∨ stored = [11] := by
      simp only [pictureUpload, List.mem_cons, reduceCtorEq, UploadEvent.uploadBlock.injEq] at hstored
      tauto
    have hfetched : fetched = [10] ∨ fetched = [11] := by
      simp only [pictureDownload, List.mem_cons, reduceCtorEq, DownloadEvent.downloadBlock.injEq,
        Except.ok.injEq] at hfetched
      tauto
    rcases hstored with rfl | rfl | rfl <;> rcases hfetched with rfl | rfl <;> decide
  decrypts block encryptedData armoredSignature data hencrypt hdecrypt := by
    have hencrypt : block = [1, 2] ∧ encryptedData = [10] ∨ block = [3] ∧ encryptedData = [11] := by
      simp only [pictureUpload, List.mem_cons, reduceCtorEq, UploadEvent.encryptBlock.injEq,
        Except.ok.injEq, Prod.mk.injEq] at hencrypt
      tauto
    have hdecrypt : encryptedData = [10] ∧ data = [1, 2] ∨ encryptedData = [11] ∧ data = [3] := by
      simp only [pictureDownload, List.mem_cons, reduceCtorEq, DownloadEvent.decryptBlock.injEq,
        Except.ok.injEq] at hdecrypt
      tauto
    rcases hencrypt with ⟨rfl, rfl⟩ | ⟨rfl, rfl⟩ <;> rcases hdecrypt with ⟨h, rfl⟩ | ⟨h, rfl⟩ <;>
      first | rfl | cases h
  signed manifest signature hverified := by
    simp only [pictureDownload, List.mem_cons, reduceCtorEq, DownloadEvent.verifyManifest.injEq,
      List.not_mem_nil, false_or, or_false] at hverified
    exact hverified.1.trans h.symm

theorem picture_listing {c : Commit} (h : c.blockSizes = [2, 1]) :
    HonestListing c (pictureDownload padded) where
  ordered := List.pairwise_pair.mpr (show 1 < 2 by decide)
  counted := by
    rw [h]
    rfl
  steady index m rest hmem := by
    have hmem : index = 1 ∧ m = pictureBlock padded 1 "new" [10] := by
      simp only [pictureDownload, List.mem_cons, reduceCtorEq, DownloadEvent.getRevisionBlockToken.injEq,
        Except.ok.injEq, List.cons.injEq] at hmem
      tauto
    obtain ⟨rfl, rfl⟩ := hmem
    refine ⟨rfl, fun m₀ hm₀ hindex => ?_⟩
    -- of the two blocks of the listing only the first has the index
    have hm₀ : m₀ ∈ [pictureBlock padded 1 "old" [10], pictureBlock padded 2 "new" [11]] := hm₀
    rcases List.mem_cons.mp hm₀ with rfl | hm₀
    · rfl
    · rw [List.mem_singleton.mp hm₀] at hindex
      cases hindex

theorem picture_round_trip : ∃ c su sd,
    Path Step (StreamUploader.start pictureUploadJob) (pictureUpload ++ [.commitDraft c]) su ∧
      Path DownloadStep (FileDownloader.start (pictureDownloadJob padded))
        (pictureDownload padded ++ [.onFinish (.ok ())]) sd ∧
      written (pictureDownload padded) = [[1, 2], [3]] ∧
      Whole 2 pictureUpload (written (pictureDownload padded)) :=
  have ⟨c, su, hupload, hmanifest, hsizes⟩ := pictureUpload_runs
  have ⟨sd, hdownload⟩ := pictureDownload_runs padded
  have hwhole := reference_round_trip hupload (by decide) hdownload rfl rfl (picture_crypto hmanifest)
    (picture_listing hsizes)
  ⟨c, su, sd, hupload, hdownload, rfl, hwhole.1⟩

end ProtonDrive.Reference
