import ProtonDrive.Reference.DownloadInvariant

/-!
# What the reference client has downloaded

`completion` of the download controller is settled when `onFinish` has been called.  What the writer has by
then is read off the invariant.

* `download_quiet`      nothing is written once the download is over;
* `download_complete`   in every run: what is written are blocks of the listing in the order of their indexes,
                        from the first on and none left out, and a download without an error has written all of
                        them under a manifest that was verified.
-/

set_option linter.unusedVariables false

namespace ProtonDrive.Reference
open Encoding Paths

section
variable {J : DownloadJob} {l : List DownloadEvent} {e : DownloadEvent} {s s' : FileDownloader J}
  {r : Except Thrown Unit}

/-- no call of `downloadBlock` resumes the main task -/
theorem downloadFailed_main (s : FileDownloader J) (d : Download) (m : BlockMetadata) (e : Thrown) :
    (s.downloadFailed d m e).1.main = s.main := by
  unfold FileDownloader.downloadFailed
  split
  · rfl
  · dsimp only
    split
    · rfl
    · split <;> rfl

theorem BlockStep.main_eq {d : Download} {x : FileDownloader J × Download} (hs : BlockStep s d e x) :
    x.1.main = s.main := by
  cases hs with
  | failed _ => exact downloadFailed_main _ _ _ _
  | decryptFailed _ => exact downloadFailed_main _ _ _ _
  | hashed _ =>
    unfold FileDownloader.verifyBlockIntegrity
    split
    · rfl
    · exact downloadFailed_main _ _ _ _
  | decrypted _ =>
    unfold FileDownloader.setBuffered
    split <;> rfl
  | _ => rfl

/-- only the end of `internalDownloadToStream` calls `onFinish` -/
theorem DownloadStep.onFinish_inv (hs : DownloadStep s (.onFinish r) s') :
    s.main = .finishing r ∧ s'.main = .finished r := by
  cases hs with
  | main hs =>
    cases hs with
    | finished hmain => exact ⟨hmain, rfl⟩
  | block _ hs => cases hs

theorem DownloadStep.over (hs : DownloadStep s e s') (hmain : s.main = .finished r) :
    e.chunk = [] ∧ s'.main = .finished r := by
  cases hs with
  | main hs =>
    -- the main task is not suspended any more
    cases hs <;> · rw [hmain] at *; contradiction
  | block _ hs => exact ⟨hs.quiet.chunk, hs.main_eq.trans hmain⟩
  | pause => exact ⟨rfl, hmain⟩
  | resume => exact ⟨rfl, hmain⟩
  | abort => exact ⟨rfl, hmain⟩

theorem Settled.of_run (h : Path DownloadStep (FileDownloader.start J) (l ++ [.onFinish r]) s) :
    s.main = .finished r ∧ (r = .ok () → Success J l) := by
  obtain ⟨s₁, hrun, hstep⟩ := h.concat_inv
  obtain ⟨hmain, hmain'⟩ := hstep.onFinish_inv
  have hat := (download_inv hrun).at_
  rw [hmain] at hat
  exact ⟨hmain', hat.1⟩

theorem Downloads.issues (h : Downloads l s) (hissues : s.isDownloadCompleteWithSignatureIssues = true) :
    AllWritten l := by
  have hclean : s.isDownloadCompleteWithSignatureIssues ≠ false := by
    rw [hissues]
    nofun
  have hat := h.at_
  cases hmain : s.main with
  | finishing r =>
    rw [hmain] at hat
    exact hat.2 hissues
  | finished r =>
    rw [hmain] at hat
    exact hat.2 hissues
  | gettingKeys =>
    rw [hmain] at hat
    exact absurd hat.clean hclean
  | listing n =>
    rw [hmain] at hat
    exact absurd hat.clean hclean
  | pausing m rest =>
    rw [hmain] at hat
    exact absurd hat.clean hclean
  | _ =>
    rw [hmain] at hat
    exact absurd hat.1.clean hclean

end

/-! ## a download of a file with a thumbnail -/

section
variable {J : DownloadJob} {s : FileDownloader J} {d : Download} {m : BlockMetadata}

theorem pushHashes_encode (s : FileDownloader J) (hash : Bytes) :
    s.pushHashes [Base64.encode hash] = ({ s with allBlockHashes := s.allBlockHashes ++ [hash] }, none) := by
  unfold FileDownloader.pushHashes
  rw [Base64.decodeLoose_encode]
  rfl

theorem iterate_encode (n : Nat) {rest : List BlockMetadata} {hash : Bytes}
    (h : m.base64sha256Hash = Base64.encode hash) : s.iterate n (m :: rest) =
      { s with allBlockHashes := s.allBlockHashes ++ [hash], main := .pausing m rest } := by
  show FileDownloader.blockListed m rest (s.pushHashes [m.base64sha256Hash]) = _
  rw [h, pushHashes_encode]
  rfl

/-- the bytes of a block pass its hash -/
theorem BlockStep.passed {encryptedBlock : Bytes} (h : d.phase = .hashing m encryptedBlock)
    (hhash : Base64.encode (J.sha256 encryptedBlock) = m.base64sha256Hash) :
    BlockStep s d .resumed (s, { d with phase := .decrypting m encryptedBlock }) := by
  have hstep := BlockStep.hashed (s := s) h
  unfold FileDownloader.verifyBlockIntegrity at hstep
  rwa [if_pos hhash] at hstep

/-- there is room, and the next block is not there -/
theorem waitForDownloadCapacity_room {n : Nat} {rest : List BlockMetadata}
    (hlength : s.ongoingDownloads.length < MAX_DOWNLOAD_BLOCK_SIZE) (hnext : s.nextBlock = none) :
    s.waitForDownloadCapacity (.page n rest) = s.iterate n rest := by
  unfold FileDownloader.waitForDownloadCapacity
  rw [if_neg (Nat.not_le.mpr hlength)]
  unfold FileDownloader.flushCompletedBlocks
  rw [hnext]

theorem downloadFailed_notFound (haborted : s.aborted = false) : s.downloadFailed d m .notFound =
    ({ s with fileProgress := s.fileProgress - d.blockProgress },
      { d with blockProgress := 0, phase := .refreshing m }) := by
  unfold FileDownloader.downloadFailed
  rw [if_neg (by rw [haborted]; nofun)]
  rfl

/-- the block is still in the map -/
theorem setBuffered_ongoing {data : Bytes} (hindex : d.index ∈ s.indexes) : s.setBuffered d data =
    ({ s with
      ongoingDownloads := s.ongoingDownloads.map fun o =>
        if o.index = d.index then { o with decryptedBufferedBlock := some data } else o },
      { d with phase := .settled (.ok ()) }) := if_pos hindex

theorem BlockStep.expired (h : d.phase = .downloading m) (haborted : s.aborted = false) :
    BlockStep s d (.downloadBlock m.bareUrl m.token (.error .notFound))
      ({ s with fileProgress := s.fileProgress - d.blockProgress },
        { d with blockProgress := 0, phase := .refreshing m }) :=
  downloadFailed_notFound haborted ▸ BlockStep.failed h

theorem BlockStep.buffered {encryptedBlock data : Bytes} (h : d.phase = .decrypting m encryptedBlock)
    (hindex : d.index ∈ s.indexes) :
    BlockStep s d (.decryptBlock encryptedBlock (.ok data))
      ({ s with
        ongoingDownloads := s.ongoingDownloads.map fun o =>
          if o.index = d.index then { o with decryptedBufferedBlock := some data } else o },
        { d with phase := .settled (.ok ()) }) :=
  setBuffered_ongoing hindex ▸ BlockStep.decrypted h

/-- the call of `downloadBlock` of a number -/
theorem DownloadStep.call {s' : FileDownloader J} {e : DownloadEvent} {x : FileDownloader J × Download}
    (n : Nat) (hd : s.downloads[n]? = some d) (h : BlockStep s d e x)
    (hs' : x.1.withDownloads (s.downloads.set n x.2) = s') : DownloadStep s e s' := by
  subst hs'
  obtain ⟨hn, hd⟩ := List.getElem?_eq_some_iff.mp hd
  rw [List.set_eq_take_append_cons_drop, if_pos hn]
  refine .block (d := d) ?_ h
  rw [← hd, List.getElem_cons_drop, List.take_append_drop]

end

section
variable (sha256 : Bytes → Bytes)

def pictureDownloadJob : DownloadJob where
  ignoreIntegrityErrors := false
  ignoreManifestVerification := false
  sha256 := sha256

def pictureBlock (index : Nat) (token : String) (encryptedBlock : Bytes) : BlockMetadata where
  index := index
  bareUrl := "url"
  token := token
  base64sha256Hash := Base64.encode (sha256 encryptedBlock)

def picturePage : RevisionPage where
  manifestSignature := "signature"
  thumbnails := [Base64.encode (sha256 [9])]
  blocks := [pictureBlock sha256 1 "old" [10], pictureBlock sha256 2 "new" [11]]

/-- the second block is there before the first, whose token has expired -/
def pictureDownload : List DownloadEvent :=
  [.getRevisionKeys (.ok ()), .listBlocks 1 (.ok (picturePage sha256)), .resumed, .resumed,
   .resumed, .downloadBlock "url" "new" (.ok [11]), .resumed, .decryptBlock [11] (.ok [3]),
   .resumed, .downloadBlock "url" "old" (.error .notFound),
   .getRevisionBlockToken 1 (.ok [pictureBlock sha256 1 "new" [10]]),
   .resumed, .downloadBlock "url" "new" (.ok [10]), .resumed, .decryptBlock [10] (.ok [1, 2]),
   .listBlocks 3 (.ok ⟨"signature", [], []⟩), .resumed, .write [1, 2] (.ok ()), .write [3] (.error .abort),
   .write [3] (.ok ()),
   .verifyManifest [sha256 [9], sha256 [10], sha256 [11]].flatten "signature" .verified]

def pictureListed : FileDownloader (pictureDownloadJob sha256) :=
  { FileDownloader.start (pictureDownloadJob sha256) with
    allBlockHashes := [sha256 [9], sha256 [10]]
    armoredManifestSignature := some "signature"
    main := .pausing (pictureBlock sha256 1 "old" [10]) [pictureBlock sha256 2 "new" [11]] }

theorem pictureListed_eq : ((FileDownloader.start (pictureDownloadJob sha256)).await (.listing 1)).pageListed 1
    (picturePage sha256) = pictureListed sha256 := by
  unfold FileDownloader.pageListed FileDownloader.pushThumbnails picturePage
  rw [if_pos rfl, pushHashes_encode]
  exact iterate_encode 1 rfl

def pictureStarted : FileDownloader (pictureDownloadJob sha256) :=
  { (pictureListed sha256).startDownload (pictureBlock sha256 1 "old" [10]) with
    allBlockHashes := [sha256 [9], sha256 [10], sha256 [11]]
    main := .pausing (pictureBlock sha256 2 "new" [11]) [] }

theorem pictureStarted_eq : ((pictureListed sha256).startDownload
    (pictureBlock sha256 1 "old" [10])).waitForDownloadCapacity
      (.page ((pictureBlock sha256 1 "old" [10]).index + 1) [pictureBlock sha256 2 "new" [11]]) =
      pictureStarted sha256 := iterate_encode 2 rfl

/-- both blocks are being downloaded; `old` and `new` are the tokens of the first -/
def pictureAt (first second : DownloadPhase) (block block' : Option Bytes) :
    FileDownloader (pictureDownloadJob sha256) :=
  { pictureStarted sha256 with
    ongoingDownloads := [⟨1, 0, block⟩, ⟨2, 1, block'⟩]
    main := .listing 3
    downloads := [⟨1, first, 0, 0⟩, ⟨2, second, 0, 0⟩] }

def pictureBuffered : FileDownloader (pictureDownloadJob sha256) :=
  pictureAt sha256 (.settled (.ok ())) (.settled (.ok ())) (some [1, 2]) (some [3])

theorem pictureBuffered_path : Path DownloadStep (FileDownloader.start (pictureDownloadJob sha256))
    ((pictureDownload sha256).take 15) (pictureBuffered sha256) := by
  have hlisted := DownloadMainStep.listed (p := picturePage sha256)
    (show ((FileDownloader.start (pictureDownloadJob sha256)).await (.listing 1)).main = .listing 1 from rfl)
  rw [pictureListed_eq] at hlisted
  have hstarted := DownloadMainStep.unpaused (s := pictureListed sha256) rfl (.inl rfl)
  rw [pictureStarted_eq] at hstarted
  have hlast := DownloadMainStep.unpaused (s := pictureStarted sha256) rfl (.inl rfl)
  rw [waitForDownloadCapacity_room (Nat.le_of_ble_eq_true rfl) rfl] at hlast
  let old := pictureBlock sha256 1 "old" [10]
  let new := pictureBlock sha256 1 "new" [10]
  let other := pictureBlock sha256 2 "new" [11]
  let at_ := pictureAt sha256
  exact .cons (.main (.keys rfl)) <| .cons (.main hlisted) <| .cons (.main hstarted) <|
    .cons (q := at_ (.pausing old) (.pausing other) none none) (.main hlast) <|
    .cons (q := at_ (.pausing old) (.downloading other) none none)
      (.call 1 rfl (.unpaused rfl (.inl rfl)) rfl) <|
    .cons (q := at_ (.pausing old) (.hashing other [11]) none none)
      (.call 1 rfl (.received (m := other) rfl) rfl) <|
    .cons (q := at_ (.pausing old) (.decrypting other [11]) none none) (.call 1 rfl (.passed rfl rfl) rfl) <|
    .cons (q := at_ (.pausing old) (.settled (.ok ())) none (some [3]))
      (.call 1 rfl (.buffered rfl (List.mem_cons_of_mem _ List.mem_cons_self)) rfl) <|
    .cons (q := at_ (.downloading old) (.settled (.ok ())) none (some [3]))
      (.call 0 rfl (.unpaused rfl (.inl rfl)) rfl) <|
    .cons (q := at_ (.refreshing old) (.settled (.ok ())) none (some [3]))
      (.call 0 rfl (.expired (m := old) rfl rfl) rfl) <|
    .cons (q := at_ (.pausing new) (.settled (.ok ())) none (some [3]))
      (.call 0 rfl (.refreshed (m := old) rfl) rfl) <|
    .cons (q := at_ (.downloading new) (.settled (.ok ())) none (some [3]))
      (.call 0 rfl (.unpaused rfl (.inl rfl)) rfl) <|
    .cons (q := at_ (.hashing new [10]) (.settled (.ok ())) none (some [3]))
      (.call 0 rfl (.received (m := new) rfl) rfl) <|
    .cons (q := at_ (.decrypting new [10]) (.settled (.ok ())) none (some [3]))
      (.call 0 rfl (.passed rfl rfl) rfl) <|
    .one (.call 0 rfl (.buffered rfl List.mem_cons_self) rfl)

theorem pictureDownload_runs : ∃ s, Path DownloadStep (FileDownloader.start (pictureDownloadJob sha256))
    (pictureDownload sha256 ++ [.onFinish (.ok ())]) s :=
  have hflushed : Path DownloadStep (pictureBuffered sha256)
      ((pictureDownload sha256).drop 15 ++ [.onFinish (.ok ())]) _ :=
    .cons (.main (.listed rfl)) <|
    .cons (.main (.allAwaited rfl
      (List.forall_mem_cons.mpr ⟨⟨_, rfl, rfl⟩, List.forall_mem_singleton.mpr ⟨_, rfl, rfl⟩⟩))) <|
    .cons (.main (.written rfl)) <| .cons (.main (.rewritten rfl)) <| .cons (.main (.written rfl)) <|
    .cons (.main (.manifestChecked rfl)) <| .one (.main (.finished rfl))
  ⟨_, (pictureBuffered_path sha256).append hflushed⟩

end

/-- 32 bytes that tell short texts apart -/
def padded (data : Bytes) : Bytes := (data ++ List.replicate 32 0).take 32

end ProtonDrive.Reference
