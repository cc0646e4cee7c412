import ProtonDrive.Lib.Paths
import ProtonDrive.Reference.FileDownloader
import ProtonDrive.Reference.Uploads

/-!
# What holds while a file is downloaded

An invariant of the state of the file downloader, over what has happened so far.

* `listedBlocks`, `hashTexts`, `written`
                        what the API has listed, and what the writer has taken;
* `Described`           a block of the listing, or what a request for a new token said of it since;
* `Authentic`           bytes fetched for a block, that pass its hash, were decrypted to it;
* `Delivering`          the map, the calls of `downloadBlock` and the blocks that were written;
* `Listed`              the blocks that were started are those in the map and those that were written;
* `DownloadAt`          what `internalDownloadToStream` knows where it is suspended;
* `download_inv`        all of it, in every run.
-/

set_option linter.unusedVariables false

namespace ProtonDrive.Reference
open Encoding Paths

/-! ## what has happened -/

def DownloadEvent.blocks : DownloadEvent → List BlockMetadata
  | .listBlocks _ (.ok p) => p.blocks
  | _ => []

/-- the hashes of the manifest: the thumbnails are listed with the first page -/
def DownloadEvent.hashTexts : DownloadEvent → List String
  | .listBlocks n (.ok p) => (if n = 1 then p.thumbnails else []) ++ p.blocks.map BlockMetadata.base64sha256Hash
  | _ => []

def DownloadEvent.chunk : DownloadEvent → List Bytes
  | .write chunk (.ok ()) => [chunk]
  | _ => []

def listedBlocks (l : List DownloadEvent) : List BlockMetadata := l.flatMap DownloadEvent.blocks

def hashTexts (l : List DownloadEvent) : List String := l.flatMap DownloadEvent.hashTexts

def written (l : List DownloadEvent) : List Bytes := l.flatMap DownloadEvent.chunk

/-- an event that neither lists nor writes -/
structure DownloadEvent.Quiet (e : DownloadEvent) : Prop where
  blocks : e.blocks = []
  hashTexts : e.hashTexts = []
  chunk : e.chunk = []

/-- the server lists no more, or the user has had enough -/
def Ended (l : List DownloadEvent) : Prop :=
  (∃ n p, .listBlocks n (.ok p) ∈ l ∧ p.blocks = []) ∨ .abort ∈ l

inductive Described (l : List DownloadEvent) (index : Nat) : BlockMetadata → Prop
  | listed {m} (h : m ∈ listedBlocks l) (hindex : m.index = index) : Described l index m
  | refreshed {m m' rest} (h : Described l index m)
      (hmem : .getRevisionBlockToken m.index (.ok (m' :: rest)) ∈ l) : Described l index m'

section
variable {J : DownloadJob} {l : List DownloadEvent} {e : DownloadEvent} {index : Nat}

/-- bytes that the storage has returned for a block -/
def Fetched (J : DownloadJob) (l : List DownloadEvent) (index : Nat) (encryptedBlock : Bytes) : Prop :=
  ∃ m, Described l index m ∧ .downloadBlock m.bareUrl m.token (.ok encryptedBlock) ∈ l ∧
    (J.ignoreIntegrityErrors = false → Base64.encode (J.sha256 encryptedBlock) = m.base64sha256Hash)

def Authentic (J : DownloadJob) (l : List DownloadEvent) (index : Nat) (data : Bytes) : Prop :=
  ∃ encryptedBlock, Fetched J l index encryptedBlock ∧ .decryptBlock encryptedBlock (.ok data) ∈ l

def hashedAs (text : String) (hash : Bytes) : Prop := Base64.decodeLoose text = some hash

/-- every block of the listing has been written -/
structure AllWritten (l : List DownloadEvent) : Prop where
  indexes : ∀ i, i ∈ (listedBlocks l).map BlockMetadata.index ↔ 1 ≤ i ∧ i ≤ (written l).length
  ended : Ended l

theorem Ended.grow (h : Ended l) : Ended (l ++ [e]) := by
  rcases h with ⟨n, p, hmem, hempty⟩ | hmem
  · exact .inl ⟨n, p, List.mem_append_left _ hmem, hempty⟩
  · exact .inr (List.mem_append_left _ hmem)

theorem listedBlocks_concat (l : List DownloadEvent) (e : DownloadEvent) :
    listedBlocks (l ++ [e]) = listedBlocks l ++ e.blocks := by
  unfold listedBlocks
  rw [List.flatMap_append, List.flatMap_singleton]

theorem hashTexts_concat (l : List DownloadEvent) (e : DownloadEvent) :
    hashTexts (l ++ [e]) = hashTexts l ++ e.hashTexts := by
  unfold hashTexts
  rw [List.flatMap_append, List.flatMap_singleton]

theorem written_concat (l : List DownloadEvent) (e : DownloadEvent) :
    written (l ++ [e]) = written l ++ e.chunk := by
  unfold written
  rw [List.flatMap_append, List.flatMap_singleton]

theorem Described.grow {m : BlockMetadata} (h : Described l index m) : Described (l ++ [e]) index m := by
  induction h with
  | listed hmem hindex =>
    refine .listed ?_ hindex
    rw [listedBlocks_concat]
    exact List.mem_append_left _ hmem
  | refreshed _ hmem ih => exact ih.refreshed (List.mem_append_left _ hmem)

theorem Fetched.grow {encryptedBlock : Bytes} (h : Fetched J l index encryptedBlock) :
    Fetched J (l ++ [e]) index encryptedBlock := by
  obtain ⟨m, hm, hmem, hhash⟩ := h
  exact ⟨m, hm.grow, List.mem_append_left _ hmem, hhash⟩

theorem Authentic.grow {data : Bytes} (h : Authentic J l index data) : Authentic J (l ++ [e]) index data := by
  obtain ⟨encryptedBlock, hfetched, hmem⟩ := h
  exact ⟨encryptedBlock, hfetched.grow, List.mem_append_left _ hmem⟩

/-! ## the invariant -/

/-- what a call of `downloadBlock` has at hand -/
def Download.At (J : DownloadJob) (l : List DownloadEvent) (d : Download) : Prop :=
  match d.phase with
  | .pausing m | .downloading m | .refreshing m => Described l d.index m
  | .hashing m encryptedBlock =>
    Described l d.index m ∧ .downloadBlock m.bareUrl m.token (.ok encryptedBlock) ∈ l
  | .decrypting m encryptedBlock => Described l d.index m ∧ Fetched J l d.index encryptedBlock
  | .settled _ => True

def FileDownloader.indexes (s : FileDownloader J) : List Nat := s.ongoingDownloads.map OngoingDownload.index

structure Delivering (l : List DownloadEvent) (s : FileDownloader J) : Prop where
  keys : s.indexes.Nodup
  buffered : ∀ o ∈ s.ongoingDownloads, ∀ data, o.decryptedBufferedBlock = some data →
    Authentic J l o.index data
  downloads : ∀ d ∈ s.downloads, d.At J l
  aborted : s.aborted = true → .abort ∈ l
  signature : ∀ signature, s.armoredManifestSignature = some signature →
    signature ≠ "" ∧ ∃ p, .listBlocks 1 (.ok p) ∈ l ∧ p.manifestSignature = signature
  next : s.nextBlockIndex = (written l).length + 1
  written : ∀ k chunk, (written l)[k]? = some chunk → Authentic J l (k + 1) chunk

/-- of the listing, `rest` is still to be started, and `texts` to be decoded -/
structure Listed (l : List DownloadEvent) (s : FileDownloader J) (rest : List BlockMetadata)
    (texts : List String) : Prop where
  blocks : ∃ started, listedBlocks l = started ++ rest ∧
    ∀ i, i ∈ started.map BlockMetadata.index ↔ i ∈ s.indexes ∨ 1 ≤ i ∧ i < s.nextBlockIndex
  hashes : ∃ done, hashTexts l = done ++ texts ∧ List.Forall₂ hashedAs done s.allBlockHashes
  clean : s.isDownloadCompleteWithSignatureIssues = false

def Flush.rest : Flush → List BlockMetadata
  | .page _ rest => rest
  | .last => []

def Flush.texts (behind : Flush) : List String := behind.rest.map BlockMetadata.base64sha256Hash

def Flush.Fits (l : List DownloadEvent) (behind : Flush) : Prop := behind = .last → Ended l

/-- a new token leaves the hash of the listing as it is -/
def Steady (l : List DownloadEvent) : Prop :=
  ∀ index m rest, .getRevisionBlockToken index (.ok (m :: rest)) ∈ l →
    m.index = index ∧ ∀ m₀ ∈ listedBlocks l, m₀.index = index → m₀.base64sha256Hash = m.base64sha256Hash

/-- the manifest that was verified, and that it covers what was written -/
structure ManifestVerified (J : DownloadJob) (l : List DownloadEvent) (hashes : List Bytes)
    (signature : String) : Prop where
  decoded : List.Forall₂ hashedAs (hashTexts l) hashes
  signed : ∃ p, .listBlocks 1 (.ok p) ∈ l ∧ p.manifestSignature = signature ∧ signature ≠ ""
  verified : .verifyManifest hashes.flatten signature .verified ∈ l
  covers : Steady l → ∀ chunk ∈ written l, ∃ encryptedBlock, .decryptBlock encryptedBlock (.ok chunk) ∈ l ∧
    J.sha256 encryptedBlock ∈ hashes

structure Success (J : DownloadJob) (l : List DownloadEvent) : Prop extends AllWritten l where
  manifest : J.ignoreIntegrityErrors = false → J.ignoreManifestVerification = false →
    ∃ hashes signature, ManifestVerified J l hashes signature

/-- the end of the download -/
def Settled (l : List DownloadEvent) (s : FileDownloader J) (r : Except Thrown Unit) : Prop :=
  (r = .ok () → Success J l) ∧ (s.isDownloadCompleteWithSignatureIssues = true → AllWritten l)

def DownloadAt (l : List DownloadEvent) (s : FileDownloader J) : DownloadMain → Prop
  | .gettingKeys | .listing _ => Listed l s [] []
  | .pausing m rest => Listed l s (m :: rest) (rest.map BlockMetadata.base64sha256Hash)
  | .racing behind _ => Listed l s behind.rest behind.texts ∧ behind.Fits l
  | .writing behind chunk _ => Listed l s behind.rest behind.texts ∧ behind.Fits l ∧
      s.nextBlockIndex ∈ s.indexes ∧ Authentic J l s.nextBlockIndex chunk
  | .awaitingAll _ => Listed l s [] [] ∧ Ended l
  | .verifying hash signature => Listed l s [] [] ∧ Ended l ∧ s.indexes = [] ∧
      hash = s.allBlockHashes.flatten ∧ s.armoredManifestSignature = some signature ∧
      J.ignoreIntegrityErrors = false
  | .finishing r | .finished r => Settled l s r

structure Downloads (l : List DownloadEvent) (s : FileDownloader J) : Prop where
  delivering : Delivering l s
  at_ : DownloadAt l s s.main

variable {s s' : FileDownloader J}

/-! ## more events -/

theorem Download.At.grow {d : Download} (h : d.At J l) : d.At J (l ++ [e]) := by
  unfold Download.At at h ⊢
  split
  · exact Described.grow (by simpa [*] using h)
  · exact Described.grow (by simpa [*] using h)
  · exact Described.grow (by simpa [*] using h)
  · rename_i hphase
    rw [hphase] at h
    exact ⟨h.1.grow, List.mem_append_left _ h.2⟩
  · rename_i hphase
    rw [hphase] at h
    exact ⟨h.1.grow, h.2.grow⟩
  · trivial

theorem Delivering.grow (h : Delivering l s) (he : e.chunk = []) : Delivering (l ++ [e]) s where
  keys := h.keys
  buffered o ho data hdata := (h.buffered o ho data hdata).grow
  downloads d hd := (h.downloads d hd).grow
  aborted haborted := List.mem_append_left _ (h.aborted haborted)
  signature signature hsome := by
    obtain ⟨hne, p, hmem, hp⟩ := h.signature signature hsome
    exact ⟨hne, p, List.mem_append_left _ hmem, hp⟩
  next := by
    rw [written_concat, he, List.append_nil]
    exact h.next
  written k chunk hk := by
    rw [written_concat, he, List.append_nil] at hk
    exact (h.written k chunk hk).grow

theorem DownloadEvent.Quiet.listedBlocks (he : e.Quiet) :
    Reference.listedBlocks (l ++ [e]) = Reference.listedBlocks l := by
  rw [listedBlocks_concat, he.blocks, List.append_nil]

theorem DownloadEvent.Quiet.allTexts (he : e.Quiet) :
    Reference.hashTexts (l ++ [e]) = Reference.hashTexts l := by
  rw [hashTexts_concat, he.hashTexts, List.append_nil]

theorem DownloadEvent.Quiet.written (he : e.Quiet) : Reference.written (l ++ [e]) = Reference.written l := by
  rw [written_concat, he.chunk, List.append_nil]

theorem Listed.grow {rest : List BlockMetadata} {texts : List String} (h : Listed l s rest texts)
    (he : e.Quiet) : Listed (l ++ [e]) s rest texts where
  blocks := by
    rw [he.listedBlocks]
    exact h.blocks
  hashes := by
    rw [he.allTexts]
    exact h.hashes
  clean := h.clean

theorem AllWritten.grow (h : AllWritten l) (he : e.Quiet) : AllWritten (l ++ [e]) where
  indexes := by
    rw [he.listedBlocks, he.written]
    exact h.indexes
  ended := h.ended.grow

theorem Steady.shrink (h : Steady (l ++ [e])) (he : e.Quiet) : Steady l := by
  intro index m rest hmem
  have hmore := h index m rest (List.mem_append_left _ hmem)
  rw [he.listedBlocks] at hmore
  exact hmore

theorem Success.grow (h : Success J l) (he : e.Quiet) : Success J (l ++ [e]) where
  toAllWritten := h.toAllWritten.grow he
  manifest hhashes hmanifest := by
    obtain ⟨hashes, signature, hv⟩ := h.manifest hhashes hmanifest
    refine ⟨hashes, signature, ?_, ?_, List.mem_append_left _ hv.verified, fun hsteady chunk hchunk => ?_⟩
    · rw [he.allTexts]
      exact hv.decoded
    · obtain ⟨p, hmem, hp⟩ := hv.signed
      exact ⟨p, List.mem_append_left _ hmem, hp⟩
    · rw [he.written] at hchunk
      obtain ⟨encryptedBlock, hmem, hhash⟩ := hv.covers (hsteady.shrink he) chunk hchunk
      exact ⟨encryptedBlock, List.mem_append_left _ hmem, hhash⟩

theorem Settled.grow {r : Except Thrown Unit} (h : Settled l s r) (he : e.Quiet) : Settled (l ++ [e]) s r :=
  ⟨fun hr => (h.1 hr).grow he, fun hissues => (h.2 hissues).grow he⟩

theorem DownloadAt.grow {m : DownloadMain} (h : DownloadAt l s m) (he : e.Quiet) :
    DownloadAt (l ++ [e]) s m := by
  cases m with
  | gettingKeys => exact Listed.grow h he
  | listing n => exact Listed.grow h he
  | pausing m rest => exact Listed.grow h he
  | racing behind promises => exact ⟨h.1.grow he, fun hlast => (h.2 hlast).grow⟩
  | writing behind chunk retried =>
    exact ⟨h.1.grow he, fun hlast => (h.2.1 hlast).grow, h.2.2.1, h.2.2.2.grow⟩
  | awaitingAll promises => exact ⟨h.1.grow he, h.2.grow⟩
  | verifying hash signature => exact ⟨h.1.grow he, h.2.1.grow, h.2.2⟩
  | finishing r => exact Settled.grow h he
  | finished r => exact Settled.grow h he

/-! ## `internalDownloadToStream` -/

section
variable {rest : List BlockMetadata} {texts : List String} {behind : Flush} {m : BlockMetadata}

/-- where the task is suspended is no matter of the map -/
theorem Delivering.await (h : Delivering l s) (m : DownloadMain) : Delivering l (s.await m) :=
  ⟨h.keys, h.buffered, h.downloads, h.aborted, h.signature, h.next, h.written⟩

theorem Listed.await (h : Listed l s rest texts) (m : DownloadMain) : Listed l (s.await m) rest texts :=
  ⟨h.blocks, h.hashes, h.clean⟩

theorem fail_inv (h : Delivering l s) (hclean : s.isDownloadCompleteWithSignatureIssues = false) (e : Thrown) :
    Downloads l (s.fail e) := by
  refine ⟨h.await _, nofun, fun hissues => ?_⟩
  have hissues : s.isDownloadCompleteWithSignatureIssues = true := hissues
  rw [hclean] at hissues
  cases hissues

theorem listed_inv (h : Delivering l s) (hl : Listed l s [] []) (hended : Ended l) : Downloads l s.listed :=
  ⟨h.await _, hl.await _, hended⟩

/-- what was decoded before an error, or all of it -/
structure Pushed (s : FileDownloader J) (texts : List String)
    (x : FileDownloader J × Option Thrown) : Prop where
  same : x.1 = { s with allBlockHashes := x.1.allBlockHashes }
  hashes : x.2 = none → ∃ more, x.1.allBlockHashes = s.allBlockHashes ++ more ∧
    List.Forall₂ hashedAs texts more

theorem pushHashes_pushed (s : FileDownloader J) (texts : List String) :
    Pushed s texts (s.pushHashes texts) := by
  induction texts generalizing s with
  | nil => exact ⟨rfl, fun _ => ⟨[], (List.append_nil _).symm, .nil⟩⟩
  | cons text texts ih =>
    unfold FileDownloader.pushHashes
    split
    · exact ⟨rfl, nofun⟩
    · rename_i hash hdecode
      have hpushed := ih { s with allBlockHashes := s.allBlockHashes ++ [hash] }
      refine ⟨hpushed.same, fun hnone => ?_⟩
      obtain ⟨more, hmore, hall⟩ := hpushed.hashes hnone
      refine ⟨hash :: more, ?_, .cons hdecode hall⟩
      rw [hmore]
      exact List.append_assoc _ [hash] more

section
variable {x : FileDownloader J × Option Thrown} {more : List String}

theorem Delivering.pushed (h : Delivering l s) (hs : Pushed s more x) : Delivering l x.1 := by
  rw [hs.same]
  exact ⟨h.keys, h.buffered, h.downloads, h.aborted, h.signature, h.next, h.written⟩

theorem Listed.pushed (h : Listed l s rest (more ++ texts)) (hs : Pushed s more x) (hnone : x.2 = none) :
    Listed l x.1 rest texts := by
  obtain ⟨done, htexts, hdone⟩ := h.hashes
  obtain ⟨hashes, hmore, hall⟩ := hs.hashes hnone
  have hsame := hs.same
  refine ⟨?_, ⟨done ++ more, ?_, ?_⟩, ?_⟩
  · rw [hsame]
    exact h.blocks
  · rw [htexts, List.append_assoc]
  · rw [hmore]
    exact List.rel_append hdone hall
  · rw [hsame]
    exact h.clean

theorem Pushed.clean (hs : Pushed s more x) (hclean : s.isDownloadCompleteWithSignatureIssues = false) :
    x.1.isDownloadCompleteWithSignatureIssues = false := by
  rw [hs.same]
  exact hclean

end

theorem blockListed_inv {x : FileDownloader J × Option Thrown} (h : Delivering l s)
    (hl : Listed l s (m :: rest) ((m :: rest).map BlockMetadata.base64sha256Hash))
    (hs : Pushed s [m.base64sha256Hash] x) : Downloads l (FileDownloader.blockListed m rest x) := by
  obtain ⟨s', error⟩ := x
  cases error with
  | some e => exact fail_inv (h.pushed hs) (hs.clean hl.clean) e
  | none => exact ⟨(h.pushed hs).await _, (Listed.pushed hl hs rfl).await _⟩

theorem iterate_inv (h : Delivering l s) (hl : Listed l s rest (rest.map BlockMetadata.base64sha256Hash))
    (n : Nat) : Downloads l (s.iterate n rest) := by
  cases rest with
  | nil =>
    show Downloads l (if s.aborted = true then s.listed else s.await (.listing n))
    split
    · rename_i haborted
      exact listed_inv h hl (.inr (h.aborted haborted))
    · exact ⟨h.await _, hl.await _⟩
  | cons m rest => exact blockListed_inv h hl (pushHashes_pushed s _)

/-- what remains to be proved at the end: the blocks that are written are those of the listing -/
theorem Listed.allWritten (h : Delivering l s) (hl : Listed l s [] []) (hempty : s.indexes = [])
    (hended : Ended l) : AllWritten l := by
  obtain ⟨started, hstarted, hindexes⟩ := hl.blocks
  rw [List.append_nil] at hstarted
  refine ⟨fun i => ?_, hended⟩
  rw [hstarted, hindexes, hempty, h.next]
  simp only [List.not_mem_nil, false_or]
  omega

theorem downloaded_inv (h : Delivering l s) (hl : Listed l s [] []) (hended : Ended l) :
    Downloads l s.downloaded := by
  unfold FileDownloader.downloaded
  split
  · exact fail_inv h hl.clean _
  · rename_i hempty
    have hempty : s.indexes = [] := by
      rw [FileDownloader.indexes, List.map_eq_nil_iff]
      exact List.eq_nil_of_length_eq_zero (by omega)
    split
    · rename_i hignore
      refine ⟨h.await _, fun _ => ⟨hl.allWritten h hempty hended, fun hhashes hmanifest => ?_⟩,
        fun hissues => ?_⟩
      · rw [hhashes, hmanifest] at hignore
        cases hignore
      · exact hl.allWritten h hempty hended
    · rename_i hignore
      split
      · exact fail_inv h hl.clean _
      · rename_i signature hsignature
        refine ⟨h.await _, hl.await _, hended, hempty, rfl, hsignature, ?_⟩
        exact (Bool.or_eq_false_iff.mp (eq_false_of_ne_true hignore)).1

theorem nextBlock_some {chunk : Bytes} (h : s.nextBlock = some chunk) : ∃ o ∈ s.ongoingDownloads,
    o.index = s.nextBlockIndex ∧ o.decryptedBufferedBlock = some chunk := by
  unfold FileDownloader.nextBlock at h
  obtain ⟨o, hget, hchunk⟩ := Option.bind_eq_some_iff.mp h
  obtain ⟨ho, hkey⟩ := mapGet_some hget
  exact ⟨o, ho, hkey, hchunk⟩

theorem flushCompletedBlocks_inv (h : Delivering l s) (hl : Listed l s behind.rest behind.texts)
    (hfits : behind.Fits l) : Downloads l (s.flushCompletedBlocks behind) := by
  unfold FileDownloader.flushCompletedBlocks
  split
  · rename_i chunk hnext
    obtain ⟨o, ho, hindex, hchunk⟩ := nextBlock_some hnext
    refine ⟨h.await _, hl.await _, hfits, ?_, ?_⟩
    · exact hindex ▸ List.mem_map_of_mem ho
    · exact hindex ▸ h.buffered o ho chunk hchunk
  · cases behind with
    | page n rest => exact iterate_inv h hl n
    | last => exact downloaded_inv h hl (hfits rfl)

theorem waitForNextBlock_inv (h : Delivering l s) (hl : Listed l s behind.rest behind.texts)
    (hfits : behind.Fits l) : Downloads l (s.waitForNextBlock behind) := by
  unfold FileDownloader.waitForNextBlock
  split
  · exact flushCompletedBlocks_inv h hl hfits
  · split
    · exact flushCompletedBlocks_inv h hl hfits
    · exact ⟨h.await _, hl.await _, hfits⟩

theorem waitForDownloadCapacity_inv (h : Delivering l s) (hl : Listed l s behind.rest behind.texts)
    (hfits : behind.Fits l) : Downloads l (s.waitForDownloadCapacity behind) := by
  unfold FileDownloader.waitForDownloadCapacity
  split
  · exact waitForNextBlock_inv h hl hfits
  · exact flushCompletedBlocks_inv h hl hfits

/-! ### a block is started, a block is written -/

theorem Delivering.startDownload (h : Delivering l s) (hm : m ∈ listedBlocks l) :
    Delivering l (s.startDownload m) where
  keys := mapSet_nodup h.keys
  buffered o ho data hdata := by
    rcases mem_mapSet ho with rfl | ho
    · cases hdata
    · exact h.buffered o ho data hdata
  downloads d hd := by
    rcases List.mem_append.mp hd with hd | hd
    · exact h.downloads d hd
    · obtain rfl := List.mem_singleton.mp hd
      exact Described.listed hm rfl
  aborted := h.aborted
  signature := h.signature
  next := h.next
  written := h.written

theorem Listed.startDownload (hl : Listed l s (m :: rest) texts) :
    Listed l (s.startDownload m) rest texts where
  blocks := by
    obtain ⟨started, hstarted, hindexes⟩ := hl.blocks
    refine ⟨started ++ [m], by rw [hstarted, List.append_assoc, List.singleton_append], fun i => ?_⟩
    have hkeys : i ∈ (s.startDownload m).indexes ↔ i ∈ s.indexes ∨ i = m.index := mem_mapSet_keys
    rw [List.map_append, List.mem_append, hindexes, List.map_singleton, List.mem_singleton, hkeys]
    exact or_right_comm
  hashes := hl.hashes
  clean := hl.clean

theorem Listed.head_mem (hl : Listed l s (m :: rest) texts) : m ∈ listedBlocks l := by
  obtain ⟨started, hstarted, _⟩ := hl.blocks
  rw [hstarted]
  exact List.mem_append_right _ List.mem_cons_self

/-- the event of a block that is written -/
def wrote (chunk : Bytes) : DownloadEvent := .write chunk (.ok ())

theorem Delivering.flushed {chunk : Bytes} (h : Delivering l s)
    (hchunk : Authentic J l s.nextBlockIndex chunk) :
    Delivering (l ++ [wrote chunk]) s.flushed where
  keys := mapDelete_nodup h.keys
  buffered o ho data hdata := (h.buffered o (List.mem_filter.mp ho).1 data hdata).grow
  downloads d hd := (h.downloads d hd).grow
  aborted haborted := List.mem_append_left _ (h.aborted haborted)
  signature signature hsome := by
    obtain ⟨hne, p, hmem, hp⟩ := h.signature signature hsome
    exact ⟨hne, p, List.mem_append_left _ hmem, hp⟩
  next := by
    rw [written_concat, List.length_append]
    exact congrArg Nat.succ h.next
  written k data hk := by
    rw [written_concat] at hk
    by_cases hlt : k < (Reference.written l).length
    · rw [List.getElem?_append_left hlt] at hk
      exact (h.written k data hk).grow
    · rw [List.getElem?_append_right (Nat.le_of_not_lt hlt)] at hk
      have hk : [chunk][k - (Reference.written l).length]? = some data := hk
      rw [List.getElem?_singleton] at hk
      split at hk
      · next hzero =>
        obtain rfl := Option.some.inj hk
        have hnext : k + 1 = s.nextBlockIndex := by
          rw [h.next]
          omega
        rw [hnext]
        exact hchunk.grow
      · cases hk

theorem Listed.flushed {chunk : Bytes} (hl : Listed l s rest texts) (h : Delivering l s)
    (hnext : s.nextBlockIndex ∈ s.indexes) : Listed (l ++ [wrote chunk]) s.flushed rest texts where
  blocks := by
    obtain ⟨started, hstarted, hindexes⟩ := hl.blocks
    rw [listedBlocks_concat]
    refine ⟨started, (List.append_nil _).trans hstarted, fun i => ?_⟩
    have hkeys : i ∈ s.flushed.indexes ↔ i ∈ s.indexes ∧ i ≠ s.nextBlockIndex := mem_mapDelete_keys
    have hsucc : s.flushed.nextBlockIndex = s.nextBlockIndex + 1 := rfl
    have hpos : 1 ≤ s.nextBlockIndex := by
      rw [h.next]
      omega
    rw [hindexes, hkeys, hsucc]
    by_cases hi : i = s.nextBlockIndex
    · subst hi
      exact iff_of_true (.inl hnext) (.inr ⟨hpos, Nat.lt_succ_self _⟩)
    · constructor
      · rintro (hmem | hlt)
        · exact .inl ⟨hmem, hi⟩
        · exact .inr ⟨hlt.1, by omega⟩
      · rintro (hmem | hlt)
        · exact .inl hmem.1
        · exact .inr ⟨hlt.1, by omega⟩
  hashes := by
    rw [hashTexts_concat]
    obtain ⟨done, hdone, hall⟩ := hl.hashes
    exact ⟨done, (List.append_nil _).trans hdone, hall⟩
  clean := hl.clean

/-! ### a page of the listing -/

/-- the event of a page that is listed -/
def paged (n : Nat) (p : RevisionPage) : DownloadEvent := .listBlocks n (.ok p)

/-- the texts of the thumbnails, which come first -/
def firstTexts (n : Nat) (p : RevisionPage) : List String := if n = 1 then p.thumbnails else []

theorem Listed.paged (hl : Listed l s [] []) (n : Nat) (p : RevisionPage) :
    Listed (l ++ [paged n p]) s p.blocks (firstTexts n p ++ p.blocks.map BlockMetadata.base64sha256Hash) where
  blocks := by
    obtain ⟨started, hstarted, hindexes⟩ := hl.blocks
    rw [List.append_nil] at hstarted
    rw [listedBlocks_concat, hstarted]
    exact ⟨started, rfl, hindexes⟩
  hashes := by
    obtain ⟨done, hdone, hall⟩ := hl.hashes
    rw [List.append_nil] at hdone
    rw [hashTexts_concat, hdone]
    exact ⟨done, rfl, hall⟩
  clean := hl.clean

theorem Delivering.setSignature {p : RevisionPage} (h : Delivering l s)
    (hmem : .listBlocks 1 (.ok p) ∈ l) : Delivering l (s.setSignature p) where
  keys := h.keys
  buffered := h.buffered
  downloads := h.downloads
  aborted := h.aborted
  signature signature hsome := by
    have hsome : (if p.manifestSignature = "" then none else some p.manifestSignature) = some signature := hsome
    split at hsome
    · cases hsome
    · next hne =>
      obtain rfl := Option.some.inj hsome
      exact ⟨hne, p, hmem, rfl⟩
  next := h.next
  written := h.written

/-- the thumbnails of the first page are decoded, of any other page nothing -/
theorem pushThumbnails_pushed (n : Nat) (p : RevisionPage) : ∃ s₁ : FileDownloader J,
    (s₁ = s ∨ n = 1 ∧ s₁ = s.setSignature p) ∧ Pushed s₁ (firstTexts n p) (s.pushThumbnails n p) := by
  unfold FileDownloader.pushThumbnails firstTexts
  by_cases hn : n = 1
  · rw [if_pos hn, if_pos hn]
    exact ⟨_, .inr ⟨hn, rfl⟩, pushHashes_pushed _ _⟩
  · rw [if_neg hn, if_neg hn]
    exact ⟨s, .inl rfl, rfl, fun _ => ⟨[], (List.append_nil _).symm, .nil⟩⟩

theorem pageListed_inv (h : Delivering l s) (hl : Listed l s [] []) (n : Nat) (p : RevisionPage) :
    Downloads (l ++ [paged n p]) (s.pageListed n p) := by
  have hmem : paged n p ∈ l ++ [paged n p] := List.mem_append_right _ List.mem_cons_self
  obtain ⟨s₁, hs₁, hpushed⟩ := pushThumbnails_pushed (s := s) n p
  have hd : Delivering (l ++ [paged n p]) s₁ := by
    rcases hs₁ with rfl | ⟨rfl, rfl⟩
    · exact h.grow rfl
    · exact (h.grow rfl).setSignature hmem
  have hl₁ : Listed (l ++ [paged n p]) s₁ p.blocks
      (firstTexts n p ++ p.blocks.map BlockMetadata.base64sha256Hash) := by
    rcases hs₁ with rfl | ⟨rfl, rfl⟩
    · exact hl.paged n p
    · have hpage := hl.paged 1 p
      exact ⟨hpage.blocks, hpage.hashes, hpage.clean⟩
  unfold FileDownloader.pageListed
  generalize s.pushThumbnails n p = x at hpushed
  obtain ⟨s₂, error⟩ := x
  cases error with
  | some e => exact fail_inv (hd.pushed hpushed) (hpushed.clean hl₁.clean) e
  | none =>
    have hl₂ := hl₁.pushed hpushed rfl
    show Downloads _ (if p.blocks.isEmpty = true then s₂.listed else s₂.iterate n p.blocks)
    split
    · next hempty =>
      have hnil := List.isEmpty_iff.mp hempty
      rw [hnil] at hl₂
      exact listed_inv (hd.pushed hpushed) hl₂ (.inl ⟨n, p, hmem, hnil⟩)
    · exact iterate_inv (hd.pushed hpushed) hl₂ n

/-! ### the manifest -/

/-- where tokens leave the hashes as they are, what is known of a block is what the listing says -/
theorem Described.steady {index : Nat} (h : Described l index m) (hsteady : Steady l) :
    ∃ m₀ ∈ listedBlocks l, m₀.index = index ∧ m₀.base64sha256Hash = m.base64sha256Hash ∧ m.index = index := by
  induction h with
  | listed hmem hindex => exact ⟨_, hmem, hindex, rfl, hindex⟩
  | refreshed _ hmem ih =>
    obtain ⟨m₀, hm₀, hindex, hhash, hsame⟩ := ih
    obtain ⟨hindex', hhash'⟩ := hsteady _ _ _ hmem
    exact ⟨m₀, hm₀, hindex, hhash' m₀ hm₀ (hindex.trans hsame.symm), hindex'.trans hsame⟩

theorem hashText_mem {m : BlockMetadata} (h : m ∈ listedBlocks l) : m.base64sha256Hash ∈ hashTexts l := by
  obtain ⟨e, he, hm⟩ := List.mem_flatMap.mp h
  refine List.mem_flatMap.mpr ⟨e, he, ?_⟩
  cases e with
  | listBlocks n answer =>
    cases answer with
    | ok p => exact List.mem_append_right _ (List.mem_map_of_mem hm)
    | error e => cases hm
  | _ => cases hm

theorem exists_of_forall₂ {α β : Type} {R : α → β → Prop} {as : List α} {bs : List β}
    (h : List.Forall₂ R as bs) {a : α} (ha : a ∈ as) : ∃ b ∈ bs, R a b := by
  induction h with
  | nil => cases ha
  | cons hab _ ih =>
    rcases List.mem_cons.mp ha with rfl | ha
    · exact ⟨_, List.mem_cons_self, hab⟩
    · obtain ⟨b, hb, hr⟩ := ih ha
      exact ⟨b, List.mem_cons_of_mem _ hb, hr⟩

/-- a block that passed its hash is among those that the manifest is about -/
theorem Authentic.covered {index : Nat} {data : Bytes} {hashes : List Bytes} (h : Authentic J l index data)
    (hintegrity : J.ignoreIntegrityErrors = false) (hsteady : Steady l)
    (hdecoded : List.Forall₂ hashedAs (hashTexts l) hashes) :
    ∃ encryptedBlock, .decryptBlock encryptedBlock (.ok data) ∈ l ∧ J.sha256 encryptedBlock ∈ hashes := by
  obtain ⟨encryptedBlock, ⟨m, hm, _, hhash⟩, hdecrypt⟩ := h
  obtain ⟨m₀, hm₀, _, hsame, _⟩ := hm.steady hsteady
  obtain ⟨hash, hmem, hdecode⟩ := exists_of_forall₂ hdecoded (hashText_mem hm₀)
  refine ⟨encryptedBlock, hdecrypt, ?_⟩
  have htext : m₀.base64sha256Hash = Base64.encode (J.sha256 encryptedBlock) :=
    hsame.trans (hhash hintegrity).symm
  unfold hashedAs at hdecode
  rw [htext, Base64.decodeLoose_encode] at hdecode
  exact Option.some.inj hdecode ▸ hmem

theorem manifestChecked_inv {hash : Bytes} {signature : String} {check : ManifestCheck} (h : Delivering l s)
    (hat : DownloadAt l s (.verifying hash signature)) (he : .verifyManifest hash signature check ∈ l) :
    Downloads l (s.manifestChecked check) := by
  obtain ⟨hl, hended, hempty, rfl, hsignature, hintegrity⟩ := hat
  have hall := hl.allWritten h hempty hended
  cases check with
  | failed e => exact fail_inv h hl.clean e
  | notVerified => exact ⟨⟨h.keys, h.buffered, h.downloads, h.aborted, h.signature, h.next, h.written⟩, nofun,
      fun _ => hall⟩
  | keysFailed => exact ⟨⟨h.keys, h.buffered, h.downloads, h.aborted, h.signature, h.next, h.written⟩, nofun,
      fun _ => hall⟩
  | verified =>
    obtain ⟨done, hdone, hdecoded⟩ := hl.hashes
    rw [List.append_nil] at hdone
    rw [← hdone] at hdecoded
    obtain ⟨hne, p, hp, hsigned⟩ := h.signature signature hsignature
    refine ⟨h.await _, fun _ => ⟨hall, fun _ _ => ⟨s.allBlockHashes, signature, hdecoded,
      ⟨p, hp, hsigned, hne⟩, he, fun hsteady chunk hchunk => ?_⟩⟩, fun _ => hall⟩
    obtain ⟨k, hk⟩ := List.getElem?_of_mem hchunk
    exact (h.written k chunk hk).covered hintegrity hsteady hdecoded

/-! ### the main task is resumed -/

theorem DownloadMainStep.keeps (h : Downloads l s) (hs : DownloadMainStep s e s') :
    Downloads (l ++ [e]) s' := by
  obtain ⟨hd, hat⟩ := h
  have hmem : e ∈ l ++ [e] := List.mem_append_right _ List.mem_cons_self
  cases hs with
  | keys hmain =>
    rw [hmain] at hat
    exact iterate_inv (hd.grow rfl) (Listed.grow hat ⟨rfl, rfl, rfl⟩) 1
  | keysFailed hmain =>
    rw [hmain] at hat
    refine ⟨(hd.grow rfl).await _, nofun, fun hissues => ?_⟩
    have hissues : s.isDownloadCompleteWithSignatureIssues = true := hissues
    rw [Listed.clean hat] at hissues
    cases hissues
  | listed hmain =>
    rw [hmain] at hat
    exact pageListed_inv hd hat _ _
  | listFailed hmain =>
    rw [hmain] at hat
    exact fail_inv (hd.grow rfl) (Listed.clean hat) _
  | unpaused hmain hpaused =>
    rw [hmain] at hat
    have hl : Listed (l ++ [.resumed]) s _ _ := Listed.grow hat ⟨rfl, rfl, rfl⟩
    exact waitForDownloadCapacity_inv ((hd.grow rfl).startDownload hl.head_mem) hl.startDownload nofun
  | raced hmain hpromise hcall hphase =>
    rw [hmain] at hat
    obtain ⟨hl, hfits⟩ := hat
    exact waitForNextBlock_inv (hd.grow rfl) (hl.grow ⟨rfl, rfl, rfl⟩) fun hlast => (hfits hlast).grow
  | raceFailed hmain hpromise hcall hphase =>
    rw [hmain] at hat
    exact fail_inv (hd.grow rfl) hat.1.clean _
  | written hmain =>
    rw [hmain] at hat
    obtain ⟨hl, hfits, hnext, hchunk⟩ := hat
    exact flushCompletedBlocks_inv (hd.flushed hchunk) (hl.flushed hd hnext) fun hlast => (hfits hlast).grow
  | rewritten hmain =>
    rw [hmain] at hat
    obtain ⟨hl, hfits, hnext, hchunk⟩ := hat
    refine ⟨(hd.grow rfl).await _, (hl.grow ⟨rfl, rfl, rfl⟩).await _, fun hlast => (hfits hlast).grow,
      hnext, hchunk.grow⟩
  | writeFailed hmain =>
    rw [hmain] at hat
    exact fail_inv (hd.grow rfl) hat.1.clean _
  | allAwaited hmain hall =>
    rw [hmain] at hat
    exact flushCompletedBlocks_inv (hd.grow rfl) (hat.1.grow ⟨rfl, rfl, rfl⟩) fun _ => hat.2.grow
  | allFailed hmain hpromise hcall hphase =>
    rw [hmain] at hat
    exact fail_inv (hd.grow rfl) hat.1.clean _
  | manifestChecked hmain =>
    rw [hmain] at hat
    exact manifestChecked_inv (hd.grow rfl) (DownloadAt.grow hat ⟨rfl, rfl, rfl⟩) hmem
  | finished hmain =>
    rw [hmain] at hat
    exact ⟨(hd.grow rfl).await _, Settled.grow hat ⟨rfl, rfl, rfl⟩⟩

/-! ### a block is resumed -/

/-- what a call of `downloadBlock` may change beside itself: the progress, and its block in the map -/
structure BesideBlock (J : DownloadJob) (l : List DownloadEvent) (s s' : FileDownloader J) : Prop where
  same : s' = { s with fileProgress := s'.fileProgress, ongoingDownloads := s'.ongoingDownloads }
  indexes : s'.indexes = s.indexes
  buffered : ∀ o ∈ s'.ongoingDownloads, ∀ data, o.decryptedBufferedBlock = some data →
    Authentic J l o.index data

/-- nothing but the progress -/
theorem Delivering.beside (h : Delivering l s) (n : Int) : BesideBlock J l s { s with fileProgress := n } :=
  ⟨rfl, rfl, h.buffered⟩

theorem downloadFailed_inv {d : Download} (h : Delivering l s) (hm : Described l d.index m) (e : Thrown) :
    BesideBlock J l s (s.downloadFailed d m e).1 ∧ (s.downloadFailed d m e).2.At J l := by
  unfold FileDownloader.downloadFailed
  split
  · exact ⟨h.beside _, trivial⟩
  · dsimp only
    split
    · exact ⟨h.beside _, hm⟩
    · split
      · exact ⟨h.beside _, hm⟩
      · exact ⟨h.beside _, trivial⟩

theorem setBuffered_inv {d : Download} {data : Bytes} (h : Delivering l s)
    (hdata : Authentic J l d.index data) :
    BesideBlock J l s (s.setBuffered d data).1 ∧ (s.setBuffered d data).2.At J l := by
  unfold FileDownloader.setBuffered
  split
  · refine ⟨⟨rfl, ?_, fun o ho data' hdata' => ?_⟩, trivial⟩
    · show (s.ongoingDownloads.map _).map OngoingDownload.index = _
      rw [List.map_map]
      refine List.map_congr_left fun o _ => ?_
      show OngoingDownload.index (if o.index = d.index then _ else o) = o.index
      split <;> rfl
    · obtain ⟨o', ho', rfl⟩ := List.mem_map.mp ho
      by_cases hindex : o'.index = d.index
      · rw [if_pos hindex] at hdata' ⊢
        obtain rfl := Option.some.inj hdata'
        rw [← hindex] at hdata
        exact hdata
      · rw [if_neg hindex] at hdata' ⊢
        exact h.buffered o' ho' data' hdata'
  · exact ⟨h.beside _, trivial⟩

theorem BlockStep.inv {d : Download} {x : FileDownloader J × Download} (h : Delivering l s) (hd : d.At J l)
    (hs : BlockStep s d e x) : BesideBlock J (l ++ [e]) s x.1 ∧ x.2.At J (l ++ [e]) := by
  have hmem : e ∈ l ++ [e] := List.mem_append_right _ List.mem_cons_self
  have hbeside : e.chunk = [] → BesideBlock J (l ++ [e]) s s := fun he => (h.grow he).beside _
  unfold Download.At at hd
  cases hs with
  | unpaused hphase hpaused =>
    rw [hphase] at hd
    exact ⟨hbeside rfl, Described.grow hd⟩
  | progress hphase =>
    refine ⟨(h.grow rfl).beside _, ?_⟩
    unfold Download.At
    rw [hphase] at hd ⊢
    exact Described.grow hd
  | received hphase =>
    rw [hphase] at hd
    refine ⟨hbeside rfl, ?_⟩
    show Download.At J _ (if J.ignoreIntegrityErrors = true then _ else _)
    split
    · next hignore =>
      refine ⟨Described.grow hd, _, Described.grow hd, hmem, fun hverifies => ?_⟩
      rw [hverifies] at hignore
      cases hignore
    · exact ⟨Described.grow hd, hmem⟩
  | failed hphase =>
    rw [hphase] at hd
    exact downloadFailed_inv (h.grow rfl) (Described.grow hd) _
  | hashed hphase =>
    rw [hphase] at hd
    obtain ⟨hm, hreceived⟩ := hd
    unfold FileDownloader.verifyBlockIntegrity
    split
    · next hhash => exact ⟨hbeside rfl, hm.grow, _, hm.grow, List.mem_append_left _ hreceived, fun _ => hhash⟩
    · exact downloadFailed_inv (h.grow rfl) hm.grow _
  | decrypted hphase =>
    rw [hphase] at hd
    exact setBuffered_inv (h.grow rfl) ⟨_, hd.2.grow, hmem⟩
  | decryptFailed hphase =>
    rw [hphase] at hd
    exact downloadFailed_inv (h.grow rfl) hd.1.grow _
  | @refreshed m blocks hphase =>
    rw [hphase] at hd
    refine ⟨hbeside rfl, ?_⟩
    cases blocks with
    | nil => trivial
    | cons m' rest => exact Described.refreshed (Described.grow hd) hmem
  | refreshFailed hphase => exact ⟨hbeside rfl, trivial⟩

/-- the main task knows nothing that a call of `downloadBlock` changes -/
theorem DownloadAt.same {m : DownloadMain} (h : DownloadAt l s m) (hindexes : s'.indexes = s.indexes)
    (hnext : s'.nextBlockIndex = s.nextBlockIndex) (hhashes : s'.allBlockHashes = s.allBlockHashes)
    (hsignature : s'.armoredManifestSignature = s.armoredManifestSignature)
    (hissues : s'.isDownloadCompleteWithSignatureIssues = s.isDownloadCompleteWithSignatureIssues) :
    DownloadAt l s' m := by
  have hlisted : ∀ {rest texts}, Listed l s rest texts → Listed l s' rest texts := by
    intro rest texts hl
    refine ⟨?_, ?_, hissues.trans hl.clean⟩
    · rw [hindexes, hnext]
      exact hl.blocks
    · rw [hhashes]
      exact hl.hashes
  cases m with
  | gettingKeys => exact hlisted h
  | listing n => exact hlisted h
  | pausing m rest => exact hlisted h
  | racing behind promises => exact ⟨hlisted h.1, h.2⟩
  | writing behind chunk retried =>
    unfold DownloadAt
    rw [hindexes, hnext]
    exact ⟨hlisted h.1, h.2⟩
  | awaitingAll promises => exact ⟨hlisted h.1, h.2⟩
  | verifying hash signature =>
    unfold DownloadAt
    rw [hindexes, hhashes, hsignature]
    exact ⟨hlisted h.1, h.2⟩
  | finishing r => exact ⟨h.1, fun hs' => h.2 (hissues.symm.trans hs')⟩
  | finished r => exact ⟨h.1, fun hs' => h.2 (hissues.symm.trans hs')⟩

theorem BlockStep.keeps {d d' : Download} {pre post : List Download} (h : Downloads l s)
    (hdownloads : s.downloads = pre ++ d :: post) (hs : BlockStep s d e (s', d')) (hquiet : e.Quiet) :
    Downloads (l ++ [e]) (s'.withDownloads (pre ++ d' :: post)) := by
  obtain ⟨hd, hat⟩ := h
  have hmem : d ∈ s.downloads := by
    rw [hdownloads]
    exact List.mem_append_right _ List.mem_cons_self
  obtain ⟨hbeside, hd'⟩ := hs.inv hd (hd.downloads d hmem)
  obtain ⟨hsame, hindexes, hbuffered⟩ := hbeside
  dsimp only at hsame hindexes hbuffered hd'
  have hgrown := hd.grow hquiet.chunk
  refine ⟨⟨?_, hbuffered, ?_, ?_, ?_, ?_, ?_⟩, ?_⟩
  · exact hindexes ▸ hd.keys
  · intro c hc
    have hc : c ∈ pre ++ d' :: post := hc
    rcases List.mem_append.mp hc with hc | hc
    · exact hgrown.downloads c (hdownloads ▸ List.mem_append_left _ hc)
    · rcases List.mem_cons.mp hc with rfl | hc
      · exact hd'
      · exact hgrown.downloads c (hdownloads ▸ List.mem_append_right _ (List.mem_cons_of_mem _ hc))
  · rw [hsame]
    exact hgrown.aborted
  · rw [hsame]
    exact hgrown.signature
  · rw [hsame]
    exact hgrown.next
  · exact hgrown.written
  · have hmain : s'.main = s.main := by rw [hsame]
    show DownloadAt (l ++ [e]) _ s'.main
    rw [hmain]
    refine (DownloadAt.grow hat hquiet).same hindexes ?_ ?_ ?_ ?_
    all_goals
      rw [hsame]
      rfl

/-- no call of `downloadBlock` lists or writes -/
theorem BlockStep.quiet {d : Download} {x : FileDownloader J × Download} (hs : BlockStep s d e x) :
    e.Quiet := by
  cases hs <;> exact ⟨rfl, rfl, rfl⟩

/-! ### every run -/

theorem DownloadStep.keeps (h : Downloads l s) (hs : DownloadStep s e s') : Downloads (l ++ [e]) s' := by
  cases hs with
  | main hmain => exact hmain.keeps h
  | block hdownloads hblock => exact hblock.keeps h hdownloads hblock.quiet
  | pause =>
    obtain ⟨hd, hat⟩ := h
    have hd := hd.grow (e := .pause) rfl
    exact ⟨⟨hd.keys, hd.buffered, hd.downloads, hd.aborted, hd.signature, hd.next, hd.written⟩,
      (hat.grow ⟨rfl, rfl, rfl⟩).same rfl rfl rfl rfl rfl⟩
  | resume =>
    obtain ⟨hd, hat⟩ := h
    have hd := hd.grow (e := .resume) rfl
    exact ⟨⟨hd.keys, hd.buffered, hd.downloads, hd.aborted, hd.signature, hd.next, hd.written⟩,
      (hat.grow ⟨rfl, rfl, rfl⟩).same rfl rfl rfl rfl rfl⟩
  | abort =>
    obtain ⟨hd, hat⟩ := h
    have hd := hd.grow (e := .abort) rfl
    exact ⟨⟨hd.keys, hd.buffered, hd.downloads, fun _ => List.mem_append_right _ List.mem_cons_self,
        hd.signature, hd.next, hd.written⟩,
      (hat.grow ⟨rfl, rfl, rfl⟩).same rfl rfl rfl rfl rfl⟩

theorem start_downloads (J : DownloadJob) : Downloads [] (FileDownloader.start J) where
  delivering := {
    keys := List.nodup_nil
    buffered := nofun
    downloads := nofun
    aborted := nofun
    signature := nofun
    next := rfl
    written := nofun }
  at_ := {
    blocks := ⟨[], rfl, fun i => by simp [FileDownloader.indexes, FileDownloader.start]; omega⟩
    hashes := ⟨[], rfl, .nil⟩
    clean := rfl }

theorem download_inv (h : Path DownloadStep (FileDownloader.start J) l s) : Downloads l s :=
  h.recorded (I := fun l s => Downloads l s) (fun _ _ _ _ hv hs => hs.keeps hv) (start_downloads J)

end

end

end ProtonDrive.Reference
