import Mathlib.Algebra.BigOperators.Group.List.Basic
import ProtonDrive.Reference.Uploads

/-!
# What holds while a file is uploaded

An invariant of the state of the stream uploader, over what has happened so far.

* `Encryptor.At`        how far `encryptBlocks` has cut the stream, and how many blocks it has handed over;
* `Parts`               each of these blocks was encrypted, and is in the buffer or an upload;
* `Core`                both;
* `MainAt`              what `start` knows where it is suspended;
* `Inv`                 that, as long as `start` has neither committed nor failed;
* `step_inv`            every step keeps it.
-/

set_option linter.unusedVariables false

namespace ProtonDrive.Reference
open Encoding Paths Chunking Sorting

/-! ## the invariant -/

def UploadEvent.isCommit : UploadEvent → Bool
  | .commitDraft _ => true
  | _ => false

/-- a block of the stream, as it was encrypted -/
def Encrypted (J : UploadJob) (l : List UploadEvent) (chunks : List Bytes) (b : EncryptedBlock) : Prop :=
  ∃ block, 1 ≤ b.index ∧ chunks[b.index - 1]? = some block ∧
    .encryptBlock block (.ok (b.encryptedData, b.armoredSignature)) ∈ l ∧
    .decryptBlock b.encryptedData (.ok ()) ∈ l ∧
    b = StreamUploader.encryptedBlock J b.index block b.encryptedData b.armoredSignature

def ThumbnailEncrypted (J : UploadJob) (l : List UploadEvent) (t : EncryptedThumbnail) : Prop :=
  ∃ thumbnail ∈ J.thumbnails, .encryptThumbnail thumbnail (.ok t.encryptedData) ∈ l ∧
    t.type = thumbnail.type ∧ t.hash = J.sha256 t.encryptedData

section
variable {n : Nat}

/-- the stream was read to its end -/
structure Whole (n : Nat) (l : List UploadEvent) (chunks : List Bytes) : Prop where
  exact : Exact n chunks
  content : delivered l = chunks.flatten
  ended : .readDone ∈ l

/-- the chunks and what the generator still holds are what was delivered -/
def Cut (l : List UploadEvent) (chunks : List Bytes) : Option (ChunkStreamReader n) → Prop
  | some reader => (∀ c ∈ chunks, c.length = n) ∧ delivered l = chunks.flatten ++ reader.held
  | none => Whole n l chunks

/-- in the body of the loop: the last chunk is at hand, and `k` were handed over before -/
structure Body (l : List UploadEvent) (chunks : List Bytes) (k : Nat) (rest : Option (ChunkStreamReader n))
    (index : Nat) (block : Bytes) : Prop where
  index : index = k + 1
  length : chunks.length = k + 1
  block : chunks[k]? = some block
  cut : Cut l chunks rest

/-- `encryptBlocks` has cut `chunks` off the stream, and handed over `k` of them -/
def Encryptor.At (l : List UploadEvent) (aborted : Bool) (chunks : List Bytes) (k : Nat) : Encryptor n → Prop
  | .idle => chunks = [] ∧ delivered l = [] ∧ k = 0
  | .reading reader index =>
    index = k ∧ chunks.length = k ∧ Cut l chunks (some reader) ∧ reader.remainingValue = []
  | .pausing rest index block => Body l chunks k rest index block
  | .buffering rest index block => Body l chunks k rest index block
  | .encrypting rest index block _ => Body l chunks k rest index block
  | .verifying rest index block _ data signature =>
    Body l chunks k rest index block ∧ .encryptBlock block (.ok (data, signature)) ∈ l
  | .ended error | .settled error =>
    error = none → aborted = false → chunks.length = k ∧ Whole n l chunks

def Encryptor.Over (error : Option Thrown) (e : Encryptor n) : Prop := e = .ended error ∨ e = .settled error

/-- the stream is being read, or a block of it encrypted -/
def Encryptor.running : Encryptor n → Bool
  | .idle | .ended _ | .settled _ => false
  | _ => true

theorem Encryptor.Over.not_running {error : Option Thrown} {e : Encryptor n} (h : e.Over error) :
    e.running = false := by
  rcases h with rfl | rfl <;> rfl

end

section
variable {J : UploadJob}

def StreamUploader.blocks (s : StreamUploader J) : List EncryptedBlock :=
  s.encryptedBlocks ++ uploadBlocks s.uploads

def StreamUploader.thumbnails (s : StreamUploader J) : List EncryptedThumbnail :=
  s.encryptedThumbnails ++ uploadThumbnails s.uploads

structure Parts (l : List UploadEvent) (s : StreamUploader J) : Prop where
  blocks : ∀ b ∈ s.blocks, Encrypted J l s.digests.updates b
  thumbnails : ∀ t ∈ s.thumbnails, ThumbnailEncrypted J l t
  types : (s.thumbnails.map EncryptedThumbnail.type).Nodup
  accounts : Accounts l s.uploads s.ongoingUploads s.uploadedBlocks s.uploadedThumbnails s.fileProgress
  uncommitted : ∀ e ∈ l, e.isCommit = false

/-- the blocks that were handed over are in the buffer or an upload, each of them once -/
def HandedOver (s : StreamUploader J) (k : Nat) : Prop :=
  (s.blocks.map EncryptedBlock.index).Perm (List.range' 1 k)

structure Core (l : List UploadEvent) (s : StreamUploader J) : Prop extends Parts l s where
  encryptor : ∃ k, s.encryptor.At l s.isUploadAborted s.digests.updates k ∧ HandedOver s k
  ended : s.encryptionFinished = true → ∃ error, s.encryptor.Over error

/-- the whole stream is encrypted, and its blocks are uploads -/
structure Complete (l : List UploadEvent) (s : StreamUploader J) : Prop where
  whole : Whole J.chunkSize l s.digests.updates
  blocks : ((uploadBlocks s.uploads).map EncryptedBlock.index).Perm
    (List.range' 1 s.digests.updates.length)

structure Drained (s : StreamUploader J) : Prop where
  blocks : s.encryptedBlocks = []
  thumbnails : s.encryptedThumbnails = []

/-- nothing is left to be done but to commit -/
structure Finished (l : List UploadEvent) (s : StreamUploader J) (a : Attributes) : Prop where
  settled : s.encryptor = .settled none
  complete : Complete l s
  live : liveUploads s.uploads = []
  blocks : s.uploadedBlocks.Pairwise (KeyLE Uploaded.key)
  thumbnails : s.uploadedThumbnails.Pairwise (KeyLE fun t => t.key.value)
  count : s.uploadedBlockCount = StreamUploader.expectedBlockCount J
  size : s.uploadedOriginalFileSize = J.metadata.expectedSize
  sizes : a.blockSizes = s.uploadedBlocks.map Uploaded.originalSize
  sha1 : a.sha1 = s.digests.sha1 J
  verified : ∀ expectedSha1, J.metadata.expectedSha1 = some expectedSha1 → expectedSha1 ≠ "" →
    a.sha1 = expectedSha1 ∧ a.checksumVerified = true

def MainAt (l : List UploadEvent) (s : StreamUploader J) : Main → Prop
  | .encryptingThumbnail t rest =>
    s.encryptor = .idle ∧ s.uploads = [] ∧ (J.thumbnails.map Thumbnail.type).Nodup ∧
      ∃ done, J.thumbnails = done ++ t :: rest ∧
        s.encryptedThumbnails.map EncryptedThumbnail.type = done.map Thumbnail.type
  | .awaitingEncryption => Drained s ∧ ∃ error, s.encryptor.Over error ∧ (error = none → Complete l s)
  | .awaitingUploads keys => Drained s ∧ s.encryptor = .settled none ∧ Complete l s ∧
      ∀ u ∈ liveUploads s.uploads, u.key ∈ keys
  | .hashingThumbnails a => Finished l s a
  | .hashingBlocks a hashes => Finished l s a ∧ hashes = s.uploadedThumbnails.map Uploaded.hash
  | _ => True

/-- `start` has committed or failed -/
def Main.over : Main → Bool
  | .committing | .finishing _ | .finished _ => true
  | _ => false

/-- the loop of `start` -/
def Main.looping : Main → Bool
  | .pausing | .racing _ | .polling | .requesting _ => true
  | _ => false

def Inv (l : List UploadEvent) (s : StreamUploader J) : Prop :=
  s.main.over = true ∨ Core l s ∧ MainAt l s s.main

/-! ## more events -/

variable {l : List UploadEvent} {s s' : StreamUploader J} {e : UploadEvent} {chunks : List Bytes} {k : Nat}

theorem Encrypted.grow {b : EncryptedBlock} (h : Encrypted J l chunks b) : Encrypted J (l ++ [e]) chunks b := by
  obtain ⟨block, hindex, hchunk, hencrypt, hdecrypt, hb⟩ := h
  exact ⟨block, hindex, hchunk, List.mem_append_left _ hencrypt, List.mem_append_left _ hdecrypt, hb⟩

/-- more chunks -/
theorem Encrypted.more {b : EncryptedBlock} {c : Bytes} (h : Encrypted J l chunks b) :
    Encrypted J l (chunks ++ [c]) b := by
  obtain ⟨block, hindex, hchunk, hrest⟩ := h
  refine ⟨block, hindex, ?_, hrest⟩
  rw [List.getElem?_append_left (List.getElem?_eq_some_iff.mp hchunk).1]
  exact hchunk

theorem Parts.grow (h : Parts l s) (he : e.isCommit = false) : Parts (l ++ [e]) s where
  blocks b hb := (h.blocks b hb).grow
  thumbnails t ht := by
    obtain ⟨thumbnail, hmem, hencrypt, hrest⟩ := h.thumbnails t ht
    exact ⟨thumbnail, hmem, List.mem_append_left _ hencrypt, hrest⟩
  types := h.types
  accounts := h.accounts.grow e
  uncommitted e' he' := by
    rcases List.mem_append.mp he' with he' | he'
    · exact h.uncommitted e' he'
    · rw [List.mem_singleton.mp he']
      exact he

/-- an event that brings nothing of the stream, and is not the commit -/
structure UploadEvent.Quiet (e : UploadEvent) : Prop where
  value : e.value = []
  uncommitted : e.isCommit = false

theorem UploadEvent.Quiet.delivered (h : e.Quiet) : delivered (l ++ [e]) = delivered l := by
  rw [delivered_concat, h.value, List.append_nil]

theorem Whole.grow {n : Nat} (he : e.Quiet) (h : Whole n l chunks) : Whole n (l ++ [e]) chunks :=
  ⟨h.exact, he.delivered.trans h.content, List.mem_append_left _ h.ended⟩

theorem Cut.grow {n : Nat} {rest : Option (ChunkStreamReader n)} (he : e.Quiet) (h : Cut l chunks rest) :
    Cut (l ++ [e]) chunks rest := by
  cases rest with
  | some reader => exact ⟨h.1, he.delivered.trans h.2⟩
  | none => exact Whole.grow he h

theorem Body.grow {n index : Nat} {rest : Option (ChunkStreamReader n)} {block : Bytes} (he : e.Quiet)
    (h : Body l chunks k rest index block) : Body (l ++ [e]) chunks k rest index block :=
  ⟨h.index, h.length, h.block, h.cut.grow he⟩

theorem Encryptor.At.grow {n : Nat} {enc : Encryptor n} {aborted : Bool} (he : e.Quiet)
    (h : enc.At l aborted chunks k) : enc.At (l ++ [e]) aborted chunks k := by
  cases enc with
  | idle => exact ⟨h.1, he.delivered.trans h.2.1, h.2.2⟩
  | reading reader index => exact ⟨h.1, h.2.1, h.2.2.1.grow he, h.2.2.2⟩
  | pausing rest index block => exact Body.grow he h
  | buffering rest index block => exact Body.grow he h
  | encrypting rest index block attempt => exact Body.grow he h
  | verifying rest index block attempt data signature =>
    exact ⟨h.1.grow he, List.mem_append_left _ h.2⟩
  | ended error => exact fun hnone hgoing => ⟨(h hnone hgoing).1, (h hnone hgoing).2.grow he⟩
  | settled error => exact fun hnone hgoing => ⟨(h hnone hgoing).1, (h hnone hgoing).2.grow he⟩

theorem Core.grow (h : Core l s) (he : e.Quiet) : Core (l ++ [e]) s where
  toParts := h.toParts.grow he.uncommitted
  encryptor := by
    obtain ⟨k, hat, hover⟩ := h.encryptor
    exact ⟨k, hat.grow he, hover⟩
  ended := h.ended

theorem Complete.grow (h : Complete l s) (he : e.Quiet) : Complete (l ++ [e]) s where
  whole := h.whole.grow he
  blocks := h.blocks

theorem Finished.grow {a : Attributes} (h : Finished l s a) (he : e.Quiet) : Finished (l ++ [e]) s a :=
  { h with complete := h.complete.grow he }

theorem MainAt.grow {m : Main} (h : MainAt l s m) (he : e.Quiet) : MainAt (l ++ [e]) s m := by
  cases m with
  | encryptingThumbnail t rest => exact h
  | awaitingEncryption =>
    obtain ⟨hdrained, error, hover, hcomplete⟩ := h
    exact ⟨hdrained, error, hover, fun hnone => (hcomplete hnone).grow he⟩
  | awaitingUploads keys => exact ⟨h.1, h.2.1, h.2.2.1.grow he, h.2.2.2⟩
  | hashingThumbnails a => exact Finished.grow h he
  | hashingBlocks a hashes => exact ⟨h.1.grow he, h.2⟩
  | _ => trivial

/-! ## `start` -/

theorem Core.await (h : Core l s) (m : Main) : Core l (s.await m) where
  blocks := h.blocks
  thumbnails := h.thumbnails
  types := h.types
  accounts := h.accounts
  uncommitted := h.uncommitted
  encryptor := h.encryptor
  ended := h.ended

theorem cleanup_inv (r : Except Thrown Unit) : Inv l (s.cleanup r) := .inl rfl

theorem isUploadAborted_eq_false (h : s.isUploadAborted = false) : s.error = none ∧ s.aborted = false := by
  unfold StreamUploader.isUploadAborted at h
  obtain ⟨herror, haborted⟩ := Bool.or_eq_false_iff.mp h
  exact ⟨Option.not_isSome_iff_eq_none.mp (Bool.eq_false_iff.mp herror), haborted⟩

theorem drained_of_finished (h : s.isEncryptionFullyFinished = true) :
    s.encryptionFinished = true ∧ Drained s := by
  unfold StreamUploader.isEncryptionFullyFinished at h
  rw [Bool.and_eq_true, Bool.and_eq_true, List.isEmpty_iff, List.isEmpty_iff] at h
  exact ⟨h.1.1, h.1.2, h.2⟩

theorem Complete.same (h : Complete l s) (hdigests : s'.digests = s.digests)
    (hblocks : uploadBlocks s'.uploads = uploadBlocks s.uploads) : Complete l s' where
  whole := hdigests.symm ▸ h.whole
  blocks := by
    rw [hdigests, hblocks]
    exact h.blocks

theorem Drained.same (h : Drained s) (hblocks : s'.encryptedBlocks = s.encryptedBlocks)
    (hthumbnails : s'.encryptedThumbnails = s.encryptedThumbnails) : Drained s' :=
  ⟨hblocks.trans h.blocks, hthumbnails.trans h.thumbnails⟩

/-- everything is on its way, unless an error that the encryption ended with is still to be caught -/
theorem Core.drained (h : Core l s) (hgoing : s.isUploadAborted = false)
    (hfull : s.isEncryptionFullyFinished = true) :
    Drained s ∧ ∃ error, s.encryptor.Over error ∧ (error = none → Complete l s) := by
  obtain ⟨hended, hdrained⟩ := drained_of_finished hfull
  obtain ⟨error, hover⟩ := h.ended hended
  obtain ⟨k, hat, hhanded⟩ := h.encryptor
  refine ⟨hdrained, error, hover, fun hnone => ?_⟩
  have hall : s.digests.updates.length = k ∧ Whole J.chunkSize l s.digests.updates := by
    rcases hover with hover | hover
    · rw [hover] at hat
      exact hat hnone hgoing
    · rw [hover] at hat
      exact hat hnone hgoing
  obtain ⟨hlength, hwhole⟩ := hall
  unfold HandedOver StreamUploader.blocks at hhanded
  rw [hdrained.blocks, List.nil_append, ← hlength] at hhanded
  exact ⟨hwhole, hhanded⟩

/-- the loop is left because everything is on its way, or because the upload is aborted -/
theorem Core.leave (h : Core l s)
    (hwhy : s.isUploadAborted = true ∨ s.isEncryptionFullyFinished = true) : Inv l s.leave := by
  unfold StreamUploader.leave
  cases herror : s.error with
  | some e => exact cleanup_inv _
  | none =>
    by_cases haborted : s.aborted = true
    · rw [if_pos haborted]
      exact cleanup_inv _
    · rw [if_neg haborted]
      have hgoing : s.isUploadAborted = false := by
        unfold StreamUploader.isUploadAborted
        rw [herror, eq_false_of_ne_true haborted]
        rfl
      have hfull := hwhy.resolve_left (by rw [hgoing]; nofun)
      obtain ⟨hdrained, error, hover, hcomplete⟩ := h.drained hgoing hfull
      exact .inr ⟨h.await _, hdrained.same rfl rfl, error, hover, fun hnone => (hcomplete hnone).same rfl rfl⟩

theorem Core.loop (h : Core l s) : Inv l s.loop := by
  unfold StreamUploader.loop
  split
  · rename_i haborted
    exact h.leave (.inl haborted)
  · exact .inr ⟨h.await _, trivial⟩

theorem Core.waitForUploadCapacityAndBufferedBlocks (h : Core l s) :
    Inv l s.waitForUploadCapacityAndBufferedBlocks := by
  unfold StreamUploader.waitForUploadCapacityAndBufferedBlocks
  split <;> exact .inr ⟨h.await _, trivial⟩

theorem Core.request (h : Core l s) : Inv l s.request := by
  unfold StreamUploader.request
  split
  · rename_i hwhy
    exact h.leave ((Bool.or_eq_true_iff.mp hwhy).symm)
  · exact .inr ⟨h.await _, trivial⟩

/-! ### the uploads are started -/

theorem HandedOver.nodup (h : HandedOver s k) : (s.blocks.map EncryptedBlock.index).Nodup :=
  h.nodup_iff.mpr List.nodup_range'

/-- an abort only takes away what is known of the end of the encryption -/
theorem Encryptor.At.abort {n : Nat} {enc : Encryptor n} {aborted aborted' : Bool}
    (h : enc.At l aborted chunks k) (habort : aborted = true → aborted' = true) :
    enc.At l aborted' chunks k := by
  have hback : aborted' = false → aborted = false := by
    intro hgoing
    cases aborted with
    | false => rfl
    | true =>
      rw [habort rfl] at hgoing
      cases hgoing
  cases enc with
  | ended error => exact fun hnone hgoing => h hnone (hback hgoing)
  | settled error => exact fun hnone hgoing => h hnone (hback hgoing)
  | _ => exact h

/-- what is beside the encryption may change, and parts may move from the buffer to the uploads -/
theorem Core.frame (h : Core l s) (hblocks : s'.blocks.Perm s.blocks)
    (hthumbnails : s'.thumbnails.Perm s.thumbnails)
    (haccounts : Accounts l s'.uploads s'.ongoingUploads s'.uploadedBlocks s'.uploadedThumbnails
      s'.fileProgress)
    (hdigests : s'.digests = s.digests) (hencryptor : s'.encryptor = s.encryptor)
    (hfinished : s'.encryptionFinished = s.encryptionFinished)
    (habort : s.isUploadAborted = true → s'.isUploadAborted = true) : Core l s' := by
  obtain ⟨k, hat, hover⟩ := h.encryptor
  refine ⟨⟨?_, ?_, ?_, haccounts, h.uncommitted⟩, ⟨k, ?_, ?_⟩, ?_⟩
  · rw [hdigests]
    exact fun b hb => h.blocks b (hblocks.subset hb)
  · exact fun t ht => h.thumbnails t (hthumbnails.subset ht)
  · exact (hthumbnails.map _).nodup_iff.mpr h.types
  · rw [hencryptor, hdigests]
    exact hat.abort habort
  · exact (hblocks.map _).trans hover
  · rw [hfinished, hencryptor]
    exact h.ended

/-- an item that moves from one list to the end of another -/
theorem moved_perm {α κ : Type} [DecidableEq κ] {key : α → κ} {as bs : List α} {a : α}
    (hnodup : ((as ++ bs).map key).Nodup) (ha : a ∈ as) :
    (mapDelete key as (key a) ++ (bs ++ [a])).Perm (as ++ bs) ∧ key a ∉ bs.map key := by
  rw [List.map_append] at hnodup
  refine ⟨?_, fun hmem => List.disjoint_of_nodup_append hnodup (List.mem_map_of_mem ha) hmem⟩
  have hdelete := mapDelete_perm hnodup.of_append_left ha
  rw [← List.append_assoc]
  exact (List.perm_append_singleton a _).trans (hdelete.append_right bs)

theorem Core.startThumbnail {t : EncryptedThumbnail} {bareUrl token : String} (h : Core l s)
    (ht : t ∈ s.encryptedThumbnails) :
    Core l (({ s with
      encryptedThumbnails := mapDelete EncryptedThumbnail.type s.encryptedThumbnails t.type } :
        StreamUploader J).startUpload (.thumbnail t) bareUrl token) := by
  obtain ⟨hmoved, hfresh⟩ := moved_perm h.types ht
  refine h.frame ?_ ?_ (h.accounts.add ?_ rfl rfl rfl) rfl rfl rfl id
  · refine .of_eq ?_
    simp [StreamUploader.blocks, StreamUploader.startUpload, uploadBlocks, Part.block?]
  · refine (List.Perm.of_eq ?_).trans hmoved
    simp [StreamUploader.thumbnails, StreamUploader.startUpload, uploadThumbnails, Part.thumbnail?]
  · exact fun hmem => hfresh (mem_keys_thumbnail.mp hmem)

theorem Core.startBlock {b : EncryptedBlock} {bareUrl token : String} (h : Core l s)
    (hb : b ∈ s.encryptedBlocks) :
    Core l (({ s with encryptedBlocks := mapDelete EncryptedBlock.index s.encryptedBlocks b.index } :
        StreamUploader J).startUpload (.block b) bareUrl token) := by
  obtain ⟨k, _, hover⟩ := h.encryptor
  obtain ⟨hmoved, hfresh⟩ := moved_perm hover.nodup hb
  refine h.frame ?_ ?_ (h.accounts.add ?_ rfl rfl rfl) rfl rfl rfl id
  · refine (List.Perm.of_eq ?_).trans hmoved
    simp [StreamUploader.blocks, StreamUploader.startUpload, uploadBlocks, Part.block?]
  · refine .of_eq ?_
    simp [StreamUploader.thumbnails, StreamUploader.startUpload, uploadThumbnails, Part.thumbnail?]
  · exact fun hmem => hfresh (mem_keys_block.mp hmem)

theorem Core.startThumbnails (h : Core l s) (tokens : List (UploadToken ThumbnailType)) :
    Core l (s.startThumbnails tokens).1 := by
  induction tokens generalizing s with
  | nil => exact h
  | cons token tokens ih =>
    unfold StreamUploader.startThumbnails
    split
    · exact h
    · rename_i t hget
      obtain ⟨ht, hkey⟩ := mapGet_some hget
      rw [← hkey]
      exact ih (h.startThumbnail ht)

theorem Core.startBlocks (h : Core l s) (tokens : List (UploadToken Nat)) :
    Core l (s.startBlocks tokens).1 := by
  induction tokens generalizing s with
  | nil => exact h
  | cons token tokens ih =>
    unfold StreamUploader.startBlocks
    split
    · exact h
    · rename_i b hget
      obtain ⟨hb, hkey⟩ := mapGet_some hget
      rw [← hkey]
      exact ih (h.startBlock hb)

theorem Core.initiateUpload {tokens : UploadTokens} (h : Core l s) : Inv l (s.initiateUpload tokens) := by
  unfold StreamUploader.initiateUpload
  split
  · exact cleanup_inv _
  · have hthumbnails := h.startThumbnails tokens.thumbnailTokens
    split
    · exact cleanup_inv _
    · rename_i s₁ hstart
      rw [hstart] at hthumbnails
      have hblocks := hthumbnails.startBlocks tokens.blockTokens
      unfold StreamUploader.endIteration
      split
      · exact cleanup_inv _
      · rename_i s₂ hstart₂
        rw [hstart₂] at hblocks
        split
        · rename_i hfull
          exact hblocks.leave (.inr hfull)
        · exact hblocks.loop

/-! ## `encryptBlocks` -/

section
variable {rest : Option (ChunkStreamReader J.chunkSize)} {reader : ChunkStreamReader J.chunkSize}
  {index : Nat} {block : Bytes}

theorem Parts.withEncryptor (h : Parts l s) (enc : Encryptor J.chunkSize) :
    Parts l { s with encryptor := enc } where
  blocks := h.blocks
  thumbnails := h.thumbnails
  types := h.types
  accounts := h.accounts
  uncommitted := h.uncommitted

/-- `encryptBlocks` is suspended somewhere else -/
theorem Parts.core (h : Parts l s) (hfin : s.encryptionFinished = false) {enc : Encryptor J.chunkSize}
    (hat : enc.At l s.isUploadAborted s.digests.updates k) (hover : HandedOver s k) :
    Core l { s with encryptor := enc } where
  toParts := h.withEncryptor enc
  encryptor := ⟨k, hat, hover⟩
  ended hended := by
    have hended : s.encryptionFinished = true := hended
    rw [hfin] at hended
    cases hended

theorem Parts.endEncryption {error : Option Thrown} (h : Parts l s) (hover : HandedOver s k)
    (hdone : error = none → s.isUploadAborted = false → s.digests.updates.length = k ∧
      Whole J.chunkSize l s.digests.updates) :
    Core l (s.endEncryption error) where
  blocks := h.blocks
  thumbnails := h.thumbnails
  types := h.types
  accounts := h.accounts
  uncommitted := h.uncommitted
  encryptor := ⟨k, hdone, hover⟩
  ended _ := ⟨error, .inl rfl⟩

/-- a chunk is yielded: everything before it has been handed over -/
theorem Parts.yielded (h : Parts l s) (hfin : s.encryptionFinished = false)
    (hlength : s.digests.updates.length = index) (hover : HandedOver s index)
    (hcut : Cut l (s.digests.updates ++ [block]) rest) : Core l (s.yielded rest index block) where
  blocks b hb := (h.blocks b hb).more
  thumbnails := h.thumbnails
  types := h.types
  accounts := h.accounts
  uncommitted := h.uncommitted
  encryptor := by
    refine ⟨index, ⟨rfl, ?_, ?_, hcut⟩, hover⟩
    · show (s.digests.updates ++ [block]).length = index + 1
      rw [List.length_append, hlength]
      rfl
    · show (s.digests.updates ++ [block])[index]? = some block
      rw [← hlength]
      exact List.getElem?_concat_length
  ended hended := by
    have hended : s.encryptionFinished = true := hended
    rw [hfin] at hended
    cases hended

theorem Parts.pull (h : Parts l s) (hfin : s.encryptionFinished = false)
    (hlength : s.digests.updates.length = index) (hover : HandedOver s index)
    (hcut : Cut l s.digests.updates (some reader)) : Core l (s.pull reader index) := by
  obtain ⟨hfull, hcontent⟩ := hcut
  unfold StreamUploader.pull
  split
  · rename_i reader' hpull
    obtain ⟨hnil, hheld⟩ := ChunkStreamReader.pull_none hpull
    refine h.core hfin ⟨rfl, hlength, ⟨hfull, ?_⟩, hnil⟩ hover
    exact hcontent.trans (congrArg _ hheld.symm)
  · rename_i block reader' hpull
    obtain ⟨hc, hheld⟩ := ChunkStreamReader.pull_some hpull
    refine h.yielded hfin hlength hover ⟨fun c hmem => ?_, ?_⟩
    · rcases List.mem_append.mp hmem with hmem | hmem
      · exact hfull c hmem
      · rw [List.mem_singleton.mp hmem]
        exact hc
    · rw [hcontent, hheld, List.flatten_append, List.flatten_singleton, List.append_assoc]

theorem Parts.next (h : Parts l s) (hfin : s.encryptionFinished = false)
    (hlength : s.digests.updates.length = index) (hover : HandedOver s index)
    (hcut : Cut l s.digests.updates rest) : Core l (s.next rest index) := by
  cases rest with
  | some reader => exact h.pull hfin hlength hover hcut
  | none => exact h.endEncryption hover fun _ _ => ⟨hlength, hcut⟩

/-- the generator is at the end of the stream -/
theorem Parts.streamDone (h : Parts l s) (hfin : s.encryptionFinished = false)
    (hlength : s.digests.updates.length = index) (hover : HandedOver s index)
    (hcut : Cut l s.digests.updates (some reader)) (hval : reader.remainingValue = [])
    (hended : .readDone ∈ l) : Core l (s.streamDone reader index) := by
  obtain ⟨hfull, hcontent⟩ := hcut
  unfold StreamUploader.streamDone
  split
  · rename_i block hlast
    obtain ⟨hheld, hpos, hle⟩ := ChunkStreamReader.last_some hlast hval
    refine h.yielded hfin hlength hover ⟨exact_concat J.pos hfull hpos hle, ?_, hended⟩
    rw [hcontent, hheld, List.flatten_append, List.flatten_singleton]
  · rename_i hlast
    have hheld := ChunkStreamReader.last_none hlast hval
    refine h.endEncryption hover fun _ _ => ⟨hlength, exact_of_full J.pos hfull, ?_, hended⟩
    rw [hcontent, hheld, List.append_nil]

theorem Parts.encryptionFailed {attempt : Nat} {e : Thrown} (h : Parts l s)
    (hfin : s.encryptionFinished = false) (hover : HandedOver s k)
    (hbody : Body l s.digests.updates k rest index block) :
    Core l (s.encryptionFailed rest index block attempt e) := by
  unfold StreamUploader.encryptionFailed
  split
  · exact h.endEncryption hover nofun
  · split
    · exact h.core hfin hbody hover
    · exact h.endEncryption hover nofun

/-- the block that is handed over is new -/
theorem Parts.blockVerified {data : Bytes} {signature : String} (h : Parts l s)
    (hfin : s.encryptionFinished = false) (hover : HandedOver s k)
    (hbody : Body l s.digests.updates k rest index block)
    (hencrypt : .encryptBlock block (.ok (data, signature)) ∈ l) (hdecrypt : .decryptBlock data (.ok ()) ∈ l) :
    Core l (s.blockVerified rest index block data signature) := by
  obtain ⟨rfl, hlength, hblock, hcut⟩ := hbody
  have hfresh : k + 1 ∉ s.encryptedBlocks.map EncryptedBlock.index := by
    intro hmem
    have hmem : k + 1 ∈ s.blocks.map EncryptedBlock.index := by
      unfold StreamUploader.blocks
      rw [List.map_append]
      exact List.mem_append_left _ hmem
    have hrange := List.mem_range'_1.mp (hover.subset hmem)
    omega
  have hblocks : (s.setBlock (StreamUploader.encryptedBlock J (k + 1) block data signature)).blocks.Perm
      (s.blocks ++ [StreamUploader.encryptedBlock J (k + 1) block data signature]) := by
    unfold StreamUploader.setBlock
    rw [mapSet_fresh hfresh]
    unfold StreamUploader.blocks
    rw [List.append_assoc, List.append_assoc]
    exact List.perm_append_comm.append_left _
  refine Parts.next (s := s.setBlock _) ⟨fun b hb => ?_, h.thumbnails, h.types, h.accounts, h.uncommitted⟩
    hfin hlength ?_ hcut
  · rcases List.mem_append.mp (hblocks.subset hb) with hb | hb
    · exact h.blocks b hb
    · rw [List.mem_singleton.mp hb]
      exact ⟨block, Nat.succ_pos k, hblock, hencrypt, hdecrypt, rfl⟩
  · refine (hblocks.map _).trans ?_
    rw [List.map_append, List.range'_1_concat, Nat.add_comm 1 k]
    exact hover.append_right _

end

theorem Core.unfinished (h : Core l s) (hrunning : s.encryptor.running = true) :
    s.encryptionFinished = false := by
  refine eq_false_of_ne_true fun hended => ?_
  obtain ⟨error, hover⟩ := h.ended hended
  rw [hover.not_running] at hrunning
  cases hrunning

/-- an abort touches two fields -/
theorem abortUpload_eq (s : StreamUploader J) (e : Thrown) : s.abortUpload e =
    { s with
      error := if s.isUploadAborted = true then s.error else some e
      aborted := if s.isUploadAborted = true then s.aborted else true } := by
  unfold StreamUploader.abortUpload
  split <;> rfl

theorem abortUpload_aborts (s : StreamUploader J) (e : Thrown) : (s.abortUpload e).isUploadAborted = true := by
  unfold StreamUploader.abortUpload
  split
  · assumption
  · rfl

/-- an error of the whole upload, beside everything else -/
theorem Core.abortUpload (h : Core l s) (e : Thrown) : Core l (s.abortUpload e) := by
  have habort : s.isUploadAborted = true → (s.abortUpload e).isUploadAborted = true :=
    fun _ => abortUpload_aborts s e
  unfold StreamUploader.abortUpload at habort ⊢
  split
  · exact h
  · rename_i hgoing
    rw [if_neg hgoing] at habort
    exact h.frame (.refl _) (.refl _) h.accounts rfl rfl rfl habort

/-- the error of `encryptBlocks` is caught -/
theorem Core.encryptorCaught {error : Option Thrown} (h : Core l s) (henc : s.encryptor = .ended error) :
    Core l (s.encryptorCaught error) := by
  obtain ⟨k, hat, hover⟩ := h.encryptor
  rw [henc] at hat
  cases error with
  | none => exact ⟨h.toParts.withEncryptor _, ⟨k, hat, hover⟩, fun _ => ⟨none, .inr rfl⟩⟩
  | some e =>
    have habort := h.abortUpload e
    obtain ⟨k, _, hover⟩ := habort.encryptor
    exact ⟨habort.toParts.withEncryptor _, ⟨k, nofun, hover⟩, fun _ => ⟨some e, .inr rfl⟩⟩

theorem EncryptorStep.core (h : Core l s) (hs : EncryptorStep s e s') : Core (l ++ [e]) s' := by
  obtain ⟨k, hat, hover⟩ := h.encryptor
  cases hs with
  | @read reader index value henc =>
    have hfin := h.unfinished (by rw [henc]; rfl)
    rw [henc] at hat
    obtain ⟨rfl, hlength, ⟨hfull, hcontent⟩, hnil⟩ := hat
    refine (h.toParts.grow rfl).pull hfin hlength hover ⟨hfull, ?_⟩
    rw [delivered_concat, hcontent, ChunkStreamReader.held_receive hnil, List.append_assoc]
    rfl
  | readDone henc =>
    have hfin := h.unfinished (by rw [henc]; rfl)
    rw [henc] at hat
    obtain ⟨rfl, hlength, hcut, hnil⟩ := hat
    exact (h.toParts.grow rfl).streamDone hfin hlength hover (hcut.grow ⟨rfl, rfl⟩) hnil
      (List.mem_append_right _ (List.mem_singleton.mpr rfl))
  | readFailed henc => exact (h.toParts.grow rfl).endEncryption hover nofun
  | unpaused henc hpaused =>
    have hfin := h.unfinished (by rw [henc]; rfl)
    rw [henc] at hat
    exact (h.toParts.grow rfl).core hfin (Body.grow ⟨rfl, rfl⟩ hat) hover
  | buffered henc hcond =>
    have hfin := h.unfinished (by rw [henc]; rfl)
    rw [henc] at hat
    unfold StreamUploader.buffered
    split
    · rename_i haborted
      exact (h.toParts.grow rfl).endEncryption hover fun _ hgoing => by
        rw [hgoing] at haborted
        cases haborted
    · exact (h.toParts.grow rfl).core hfin (Body.grow ⟨rfl, rfl⟩ hat) hover
  | encrypted henc =>
    have hfin := h.unfinished (by rw [henc]; rfl)
    rw [henc] at hat
    exact (h.toParts.grow rfl).core hfin
      ⟨Body.grow ⟨rfl, rfl⟩ hat, List.mem_append_right _ (List.mem_singleton.mpr rfl)⟩ hover
  | encryptFailed henc =>
    have hfin := h.unfinished (by rw [henc]; rfl)
    rw [henc] at hat
    exact (h.toParts.grow rfl).encryptionFailed hfin hover (Body.grow ⟨rfl, rfl⟩ hat)
  | verified henc =>
    have hfin := h.unfinished (by rw [henc]; rfl)
    rw [henc] at hat
    exact (h.toParts.grow rfl).blockVerified hfin hover (Body.grow ⟨rfl, rfl⟩ hat.1)
      (List.mem_append_left _ hat.2) (List.mem_append_right _ (List.mem_singleton.mpr rfl))
  | verifyFailed henc =>
    have hfin := h.unfinished (by rw [henc]; rfl)
    rw [henc] at hat
    exact (h.toParts.grow rfl).encryptionFailed hfin hover (Body.grow ⟨rfl, rfl⟩ hat.1)
  | caught henc => exact (h.grow ⟨rfl, rfl⟩).encryptorCaught henc

/-! ### `start` beside it -/

theorem EncryptorStep.main_eq (hs : EncryptorStep s e s') : s'.main = s.main := by
  have hpull : ∀ (s : StreamUploader J) reader index, (s.pull reader index).main = s.main := by
    intro s reader index
    unfold StreamUploader.pull
    split <;> rfl
  cases hs with
  | read henc => exact hpull _ _ _
  | readDone henc =>
    unfold StreamUploader.streamDone
    split <;> rfl
  | readFailed henc => rfl
  | unpaused henc hpaused => rfl
  | buffered henc hcond =>
    unfold StreamUploader.buffered
    split <;> rfl
  | encrypted henc => rfl
  | encryptFailed henc =>
    unfold StreamUploader.encryptionFailed
    split
    · rfl
    · split <;> rfl
  | @verified rest index block attempt data signature henc =>
    unfold StreamUploader.blockVerified StreamUploader.next
    cases rest with
    | none => rfl
    | some reader => exact hpull _ _ _
  | verifyFailed henc =>
    unfold StreamUploader.encryptionFailed
    split
    · rfl
    · split <;> rfl
  | @caught error henc =>
    cases error with
    | none => rfl
    | some e =>
      show (s.abortUpload e).main = s.main
      rw [abortUpload_eq]

theorem EncryptorStep.inv (hs : EncryptorStep s e s') : s.encryptor.running = true ∨
    e = .resumed ∧ ∃ error, s.encryptor = .ended error ∧ s' = s.encryptorCaught error := by
  cases hs with
  | caught henc => exact .inr ⟨rfl, _, henc, rfl⟩
  | _ =>
    rename_i henc
    first
    | exact .inl (by rw [henc]; rfl)
    | exact .inl (by simp [*, Encryptor.running])

theorem MainAt.of_looping {m : Main} (h : m.looping = true) : MainAt l s m := by
  cases m with
  | pausing => trivial
  | racing keys => trivial
  | polling => trivial
  | requesting request => trivial
  | _ => cases h

/-- while `encryptBlocks` runs, `start` is in its loop -/
theorem MainAt.looping {m : Main} (h : MainAt l s m) (hrunning : s.encryptor.running = true)
    (hover : m.over = false) : m.looping = true := by
  cases m with
  | encryptingThumbnail t rest =>
    rw [h.1] at hrunning
    cases hrunning
  | awaitingEncryption =>
    obtain ⟨_, error, hended, _⟩ := h
    rw [hended.not_running] at hrunning
    cases hrunning
  | awaitingUploads keys =>
    rw [h.2.1] at hrunning
    cases hrunning
  | hashingThumbnails a =>
    rw [Finished.settled h] at hrunning
    cases hrunning
  | hashingBlocks a hashes =>
    rw [h.1.settled] at hrunning
    cases hrunning
  | committing => cases hover
  | finishing r => cases hover
  | finished r => cases hover
  | _ => rfl

/-- what the `catch` behind `encryptBlocks` leaves alone -/
theorem encryptorCaught_same (s : StreamUploader J) (error : Option Thrown) :
    (s.encryptorCaught error).encryptedBlocks = s.encryptedBlocks ∧
      (s.encryptorCaught error).encryptedThumbnails = s.encryptedThumbnails ∧
      (s.encryptorCaught error).digests = s.digests ∧ (s.encryptorCaught error).uploads = s.uploads ∧
      (s.encryptorCaught error).encryptor = .settled error := by
  cases error with
  | none => exact ⟨rfl, rfl, rfl, rfl, rfl⟩
  | some e =>
    have hcaught : s.encryptorCaught (some e) =
        { s with
          error := if s.isUploadAborted = true then s.error else some e
          aborted := if s.isUploadAborted = true then s.aborted else true
          encryptor := .settled (some e) } := by
      show { s.abortUpload e with encryptor := .settled (some e) } = _
      rw [abortUpload_eq]
    rw [hcaught]
    exact ⟨rfl, rfl, rfl, rfl, rfl⟩

theorem MainAt.encryptorCaught {error : Option Thrown} {m : Main} (h : MainAt l s m)
    (henc : s.encryptor = .ended error) (hover : m.over = false) :
    MainAt l (s.encryptorCaught error) m := by
  obtain ⟨hblocks, hthumbnails, hdigests, huploads, hsettled⟩ := encryptorCaught_same s error
  cases m with
  | encryptingThumbnail t rest =>
    rw [h.1] at henc
    cases henc
  | awaitingEncryption =>
    obtain ⟨hdrained, error', hended, hcomplete⟩ := h
    have herror : error' = error := by
      rcases hended with hended | hended
      · rw [henc] at hended
        exact (Encryptor.ended.inj hended).symm
      · rw [henc] at hended
        cases hended
    subst herror
    exact ⟨hdrained.same hblocks hthumbnails, error', .inr hsettled,
      fun hnone => (hcomplete hnone).same hdigests (congrArg uploadBlocks huploads)⟩
  | awaitingUploads keys =>
    rw [h.2.1] at henc
    cases henc
  | hashingThumbnails a =>
    rw [Finished.settled h] at henc
    cases henc
  | hashingBlocks a hashes =>
    rw [h.1.settled] at henc
    cases henc
  | _ => trivial

theorem EncryptorStep.keeps (h : Inv l s) (hs : EncryptorStep s e s') : Inv (l ++ [e]) s' := by
  have hmain := hs.main_eq
  cases hover : s.main.over with
  | true =>
    left
    rw [hmain]
    exact hover
  | false =>
    obtain ⟨hcore, hat⟩ := h.resolve_left (by rw [hover]; nofun)
    refine .inr ⟨hs.core hcore, ?_⟩
    rw [hmain]
    rcases hs.inv with hrunning | ⟨rfl, error, henc, rfl⟩
    · exact .of_looping (hat.looping hrunning hover)
    · exact (hat.grow ⟨rfl, rfl⟩).encryptorCaught henc hover

/-! ## the uploads -/

/-- the fields that an upload leaves alone -/
structure Beside (s s' : StreamUploader J) : Prop where
  encryptedBlocks : s'.encryptedBlocks = s.encryptedBlocks
  encryptedThumbnails : s'.encryptedThumbnails = s.encryptedThumbnails
  encryptionFinished : s'.encryptionFinished = s.encryptionFinished
  digests : s'.digests = s.digests
  encryptor : s'.encryptor = s.encryptor
  main : s'.main = s.main
  abort : s.isUploadAborted = true → s'.isUploadAborted = true

/-- an upload is neither recorded nor over -/
structure GoesOn (s : StreamUploader J) (u : Upload) (s' : StreamUploader J) (u' : Upload) : Prop
    extends Beside s s' where
  part : u'.part = u.part
  pushed : u'.phase.pushed = false
  live : u'.phase.live = true
  ongoing : s'.ongoingUploads = s.ongoingUploads
  blocks : s'.uploadedBlocks = s.uploadedBlocks
  thumbnails : s'.uploadedThumbnails = s.uploadedThumbnails
  progress : s'.fileProgress = s.fileProgress - u.reported + u'.reported

section
variable {u : Upload} {pre post : List Upload} {x : StreamUploader J × Upload}

theorem attemptUpload_goesOn (s : StreamUploader J) (u : Upload) (address : Option (UploadToken UploadKey))
    (attempt : Nat) : GoesOn s u s (s.attemptUpload u address attempt) := by
  unfold StreamUploader.attemptUpload
  split
  · exact ⟨⟨rfl, rfl, rfl, rfl, rfl, rfl, id⟩, rfl, rfl, rfl, rfl, rfl, rfl, (Int.sub_add_cancel _ _).symm⟩
  · split <;>
      exact ⟨⟨rfl, rfl, rfl, rfl, rfl, rfl, id⟩, rfl, rfl, rfl, rfl, rfl, rfl, (Int.sub_add_cancel _ _).symm⟩

theorem uploadRetried_goesOn (s : StreamUploader J) (u : Upload) (address : Option (UploadToken UploadKey))
    (attempt : Nat) (e : Thrown) :
    GoesOn s u (s.uploadRetried u address attempt e).1 (s.uploadRetried u address attempt e).2 := by
  unfold StreamUploader.uploadRetried
  split
  · exact attemptUpload_goesOn s u address attempt
  · show GoesOn s u (s.abortUpload e) _
    have habort := abortUpload_aborts s e
    rw [abortUpload_eq] at habort ⊢
    exact ⟨⟨rfl, rfl, rfl, rfl, rfl, rfl, fun _ => habort⟩, rfl, rfl, rfl, rfl, rfl, rfl,
      (Int.sub_add_cancel _ _).symm⟩

theorem uploadFailed_goesOn (s : StreamUploader J) (u : Upload) (address : Option (UploadToken UploadKey))
    (attempt : Nat) (e : Thrown) :
    GoesOn s u (s.uploadFailed u address attempt e).1 (s.uploadFailed u address attempt e).2 := by
  unfold StreamUploader.uploadFailed
  split
  · exact ⟨⟨rfl, rfl, rfl, rfl, rfl, rfl, id⟩, rfl, rfl, rfl, rfl, rfl, rfl, (Int.sub_add_cancel _ _).symm⟩
  · -- what was reported is taken back first
    have hback : ∀ phase : Phase, phase.pushed = false → phase.live = true → ∀ m : Nat,
        GoesOn s u
          { s with fileProgress := s.fileProgress - u.reported, maxUploadingBlocks := m }
          { u with reported := 0, phase := phase } := by
      intro phase hpushed hlive m
      exact ⟨⟨rfl, rfl, rfl, rfl, rfl, rfl, id⟩, rfl, hpushed, hlive, rfl, rfl, rfl,
        (Int.add_zero _).symm⟩
    obtain ⟨⟨heb, het, hef, hd, henc, hm, ha⟩, hpart, hpushed, hlive, ho, hb, ht, hp⟩ :=
      uploadRetried_goesOn { s with fileProgress := s.fileProgress - u.reported } { u with reported := 0 }
        address attempt e
    unfold StreamUploader.uploadRolledBack
    split
    · exact hback _ rfl rfl _
    · exact hback _ rfl rfl _
    · refine ⟨⟨heb, het, hef, hd, henc, hm, ha⟩, hpart, hpushed, hlive, ho, hb, ht, hp.trans ?_⟩
      show s.fileProgress - u.reported - ((0 : Nat) : Int) + _ = _
      rw [Int.ofNat_zero, Int.sub_zero]

/-- a step either goes on with the upload, or it records it, or it takes it out of the map -/
theorem UploadStep.inv (hs : UploadStep s u e x) : e.Quiet ∧ u.phase.live = true ∧
    (u.phase.pushed = false ∧ GoesOn s u x.1 x.2 ∨
      (∃ address, e = .uploadBlock address u.part.data (.ok ())) ∧ u.phase.pushed = false ∧
        x = (s.uploadDone u.part, { u with phase := .settling (.ok ()) }) ∨
      ∃ r, u.phase = .settling r ∧ x = (s.uploadSettled u.key, { u with phase := .settled r })) := by
  cases hs with
  | progress h =>
    refine ⟨⟨rfl, rfl⟩, by rw [h]; rfl, .inl ⟨by rw [h]; rfl,
      ⟨⟨rfl, rfl, rfl, rfl, rfl, rfl, id⟩, rfl, by rw [h]; rfl, by rw [h]; rfl, rfl, rfl, rfl, ?_⟩⟩⟩
    show s.fileProgress + _ = s.fileProgress - u.reported + ((u.reported + _ : Nat) : Int)
    omega
  | sent h => exact ⟨⟨rfl, rfl⟩, by rw [h]; rfl, .inr (.inl ⟨⟨_, rfl⟩, by rw [h]; rfl, rfl⟩)⟩
  | failed h => exact ⟨⟨rfl, rfl⟩, by rw [h]; rfl, .inl ⟨by rw [h]; rfl, uploadFailed_goesOn ..⟩⟩
  | unaddressed h => exact ⟨⟨rfl, rfl⟩, by rw [h]; rfl, .inl ⟨by rw [h]; rfl, uploadFailed_goesOn ..⟩⟩
  | limited h hcond => exact ⟨⟨rfl, rfl⟩, by rw [h]; rfl, .inl ⟨by rw [h]; rfl, attemptUpload_goesOn ..⟩⟩
  | refreshed hpart h => exact ⟨⟨rfl, rfl⟩, by rw [h]; rfl, .inl ⟨by rw [h]; rfl, attemptUpload_goesOn ..⟩⟩
  | refreshFailed hpart h =>
    exact ⟨⟨rfl, rfl⟩, by rw [h]; rfl, .inl ⟨by rw [h]; rfl,
      ⟨⟨rfl, rfl, rfl, rfl, rfl, rfl, id⟩, rfl, rfl, rfl, rfl, rfl, rfl, (Int.sub_add_cancel _ _).symm⟩⟩⟩
  | settled h => exact ⟨⟨rfl, rfl⟩, by rw [h]; rfl, .inr (.inr ⟨_, h, rfl⟩)⟩

theorem uploadDone_beside (s : StreamUploader J) (part : Part) : Beside s (s.uploadDone part) := by
  cases part <;> exact ⟨rfl, rfl, rfl, rfl, rfl, rfl, id⟩

theorem UploadStep.beside (hs : UploadStep s u e x) : Beside s x.1 ∧ x.2.part = u.part := by
  obtain ⟨_, _, ⟨_, hgoes⟩ | ⟨_, _, rfl⟩ | ⟨r, _, rfl⟩⟩ := hs.inv
  · exact ⟨hgoes.toBeside, hgoes.part⟩
  · exact ⟨uploadDone_beside s u.part, rfl⟩
  · exact ⟨⟨rfl, rfl, rfl, rfl, rfl, rfl, id⟩, rfl⟩

theorem UploadStep.accounts (hs : UploadStep s u e x)
    (h : Accounts l (pre ++ u :: post) s.ongoingUploads s.uploadedBlocks s.uploadedThumbnails
      s.fileProgress) :
    Accounts (l ++ [e]) (pre ++ x.2 :: post) x.1.ongoingUploads x.1.uploadedBlocks
      x.1.uploadedThumbnails x.1.fileProgress := by
  have hgrown := h.grow e
  obtain ⟨_, hlive, ⟨hpushed, hgoes⟩ | ⟨⟨address, rfl⟩, hpushed, rfl⟩ | ⟨r, hphase, rfl⟩⟩ := hs.inv
  · rw [hgoes.ongoing, hgoes.blocks, hgoes.thumbnails, hgoes.progress]
    exact hgrown.replace hgoes.part (hgoes.pushed.trans hpushed.symm) (hgoes.live.trans hlive.symm)
  · have hpush := hgrown.push { u with phase := .settling (.ok ()) } rfl rfl hpushed rfl hlive.symm
      ⟨address, List.mem_append_right _ (List.mem_singleton.mpr rfl)⟩
    unfold StreamUploader.uploadDone
    cases hpart : u.part with
    | thumbnail t =>
      rw [hpart] at hpush
      rw [Part.block?, Option.map_none, Option.toList_none, List.append_nil] at hpush
      exact hpush
    | block b =>
      rw [hpart] at hpush
      rw [Part.thumbnail?, Option.map_none, Option.toList_none, List.append_nil] at hpush
      exact hpush
  · exact hgrown.settle { u with phase := .settled r } rfl rfl (by rw [hphase]; rfl) hlive rfl

end

section
variable {u u' : Upload} {pre post : List Upload}

theorem MainAt.upload {m : Main} (h : MainAt l s m) (hbeside : Beside s s')
    (hu : s.uploads = pre ++ u :: post) (hpart : u'.part = u.part) (hlive : u.phase.live = true) :
    MainAt l (s'.withUploads (pre ++ u' :: post)) m := by
  have hblocks : uploadBlocks (pre ++ u' :: post) = uploadBlocks s.uploads := by
    rw [hu, uploadBlocks_replace hpart]
  have hmem : u ∈ liveUploads s.uploads :=
    List.mem_filter.mpr ⟨hu ▸ List.mem_append_right _ List.mem_cons_self, hlive⟩
  cases m with
  | encryptingThumbnail t rest =>
    rw [h.2.1] at hmem
    cases hmem
  | awaitingEncryption =>
    obtain ⟨hdrained, error, hover, hcomplete⟩ := h
    refine ⟨hdrained.same hbeside.encryptedBlocks hbeside.encryptedThumbnails, error, ?_,
      fun hnone => (hcomplete hnone).same hbeside.digests hblocks⟩
    exact hbeside.encryptor.symm ▸ hover
  | awaitingUploads keys =>
    obtain ⟨hdrained, hsettled, hcomplete, hkeys⟩ := h
    refine ⟨hdrained.same hbeside.encryptedBlocks hbeside.encryptedThumbnails,
      hbeside.encryptor.trans hsettled, hcomplete.same hbeside.digests hblocks, fun v hv => ?_⟩
    obtain ⟨hv, hvlive⟩ := List.mem_filter.mp hv
    have hold : ∀ v ∈ s.uploads, v.phase.live = true → v.key ∈ keys :=
      fun v hv hvlive => hkeys v (List.mem_filter.mpr ⟨hv, hvlive⟩)
    rw [hu] at hold
    rcases List.mem_append.mp hv with hv | hv
    · exact hold v (List.mem_append_left _ hv) hvlive
    · rcases List.mem_cons.mp hv with rfl | hv
      · unfold Upload.key
        rw [hpart]
        exact hkeys u hmem
      · exact hold v (List.mem_append_right _ (List.mem_cons_of_mem _ hv)) hvlive
  | hashingThumbnails a =>
    rw [Finished.live h] at hmem
    cases hmem
  | hashingBlocks a hashes =>
    rw [h.1.live] at hmem
    cases hmem
  | _ => trivial

theorem UploadStep.keeps (h : Inv l s) (hu : s.uploads = pre ++ u :: post)
    (hs : UploadStep s u e (s', u')) : Inv (l ++ [e]) (s'.withUploads (pre ++ u' :: post)) := by
  have hbeside : Beside s s' := hs.beside.1
  have hpart : u'.part = u.part := hs.beside.2
  obtain ⟨hquiet, hlive, _⟩ := hs.inv
  cases hover : s.main.over with
  | true =>
    left
    show s'.main.over = true
    rw [hbeside.main]
    exact hover
  | false =>
    obtain ⟨hcore, hat⟩ := h.resolve_left (by rw [hover]; nofun)
    refine .inr ⟨?_, ?_⟩
    · refine (hcore.grow hquiet).frame (.of_eq ?_) (.of_eq ?_) ?_ hbeside.digests hbeside.encryptor
        hbeside.encryptionFinished hbeside.abort
      · show s'.encryptedBlocks ++ uploadBlocks (pre ++ u' :: post) = s.encryptedBlocks ++ uploadBlocks s.uploads
        rw [hbeside.encryptedBlocks, uploadBlocks_replace hpart, hu]
      · show s'.encryptedThumbnails ++ uploadThumbnails (pre ++ u' :: post) =
          s.encryptedThumbnails ++ uploadThumbnails s.uploads
        rw [hbeside.encryptedThumbnails, uploadThumbnails_replace hpart, hu]
      · exact hs.accounts (hu ▸ hcore.accounts)
    · show MainAt (l ++ [e]) _ s'.main
      rw [hbeside.main]
      exact (hat.grow hquiet).upload hbeside hu hpart hlive

end

/-! ## the steps of `start` -/

/-- `encryptBlocks` is called: nothing has been read yet -/
theorem Core.encryptAndUploadBlocks (h : Core l s) (hidle : s.encryptor = .idle) :
    Inv l s.encryptAndUploadBlocks := by
  have hfin : s.encryptionFinished = false := by
    refine eq_false_of_ne_true fun hended => ?_
    obtain ⟨error, hover | hover⟩ := h.ended hended
    · rw [hidle] at hover
      cases hover
    · rw [hidle] at hover
      cases hover
  obtain ⟨k, hat, hover⟩ := h.encryptor
  rw [hidle] at hat
  obtain ⟨hchunks, hdelivered, rfl⟩ := hat
  have hreading : Encryptor.At l s.isUploadAborted s.digests.updates 0 (.reading (.ofSize J.pos) 0) := by
    refine ⟨rfl, ?_, ⟨?_, ?_⟩, rfl⟩
    · rw [hchunks]
      rfl
    · rw [hchunks]
      exact nofun
    · rw [hchunks, hdelivered, ChunkStreamReader.held_ofSize]
      rfl
  exact (h.toParts.core hfin hreading hover).loop

theorem Core.encryptThumbnails {rest : List Thumbnail} (h : Core l s) (done : List Thumbnail)
    (hidle : s.encryptor = .idle) (huploads : s.uploads = []) (hnodup : (J.thumbnails.map Thumbnail.type).Nodup)
    (hall : J.thumbnails = done ++ rest)
    (htypes : s.encryptedThumbnails.map EncryptedThumbnail.type = done.map Thumbnail.type) :
    Inv l (s.encryptThumbnails rest) := by
  cases rest with
  | nil => exact h.encryptAndUploadBlocks hidle
  | cons t rest =>
    show Inv l (if s.isUploadAborted = true then s.encryptAndUploadBlocks
      else s.await (.encryptingThumbnail t rest))
    split
    · exact h.encryptAndUploadBlocks hidle
    · exact .inr ⟨h.await _, hidle, huploads, hnodup, done, hall, htypes⟩

theorem Core.thumbnailEncrypted {t : Thumbnail} {rest : List Thumbnail} {data : Bytes} (h : Core l s)
    (hat : MainAt l s (.encryptingThumbnail t rest)) (hmem : .encryptThumbnail t (.ok data) ∈ l) :
    Inv l (s.thumbnailEncrypted t rest data) := by
  obtain ⟨hidle, huploads, hnodup, done, hall, htypes⟩ := hat
  have hrest : J.thumbnails = (done ++ [t]) ++ rest := by
    rw [hall, List.append_assoc]
    rfl
  have hdone : ((done ++ [t]).map Thumbnail.type).Nodup := by
    rw [hrest, List.map_append] at hnodup
    exact hnodup.of_append_left
  have hfresh : t.type ∉ s.encryptedThumbnails.map EncryptedThumbnail.type := by
    rw [htypes]
    rw [List.map_append] at hdone
    exact fun hmem => List.disjoint_of_nodup_append hdone hmem (List.mem_singleton.mpr rfl)
  have hset : (s.setThumbnail (StreamUploader.encryptedThumbnail J t data)).encryptedThumbnails =
      s.encryptedThumbnails ++ [StreamUploader.encryptedThumbnail J t data] := mapSet_fresh hfresh
  have htypes' : (s.setThumbnail (StreamUploader.encryptedThumbnail J t data)).encryptedThumbnails.map
      EncryptedThumbnail.type = (done ++ [t]).map Thumbnail.type := by
    rw [hset, List.map_append, htypes, List.map_append]
    rfl
  have hthumbnails : (s.setThumbnail (StreamUploader.encryptedThumbnail J t data)).thumbnails =
      s.encryptedThumbnails ++ [StreamUploader.encryptedThumbnail J t data] := by
    show (s.setThumbnail _).encryptedThumbnails ++ uploadThumbnails s.uploads = _
    rw [hset, huploads]
    exact List.append_nil _
  refine Core.encryptThumbnails
    ⟨⟨h.blocks, fun t' ht' => ?_, ?_, h.accounts, h.uncommitted⟩, h.encryptor, h.ended⟩ (done ++ [t]) hidle
    huploads hnodup hrest htypes'
  · rw [hthumbnails] at ht'
    rcases List.mem_append.mp ht' with ht' | ht'
    · exact h.thumbnails t' (List.mem_append_left _ ht')
    · rw [List.mem_singleton.mp ht']
      exact ⟨t, hall ▸ List.mem_append_right _ List.mem_cons_self, hmem, rfl, rfl⟩
  · rw [hthumbnails, ← hset, htypes']
    exact hdone

theorem verifyChecksum_ok {sha1 expectedSha1 : String} {checksumVerified : Bool}
    (h : StreamUploader.verifyChecksum J sha1 = .ok checksumVerified)
    (hsome : J.metadata.expectedSha1 = some expectedSha1) (hne : expectedSha1 ≠ "") :
    sha1 = expectedSha1 ∧ checksumVerified = true := by
  unfold StreamUploader.verifyChecksum at h
  rw [hsome, Option.filter_some, if_pos (by simpa using hne)] at h
  by_cases hsame : sha1 = expectedSha1
  · have h : (if sha1 ≠ expectedSha1 then _ else Except.ok true) = Except.ok checksumVerified := h
    rw [if_neg (not_not.mpr hsame)] at h
    exact ⟨hsame, (Except.ok.inj h).symm⟩
  · have h : (if sha1 ≠ expectedSha1 then Except.error _ else _) = Except.ok checksumVerified := h
    rw [if_pos hsame] at h
    cases h

theorem verifyIntegrity_ok {sha1 : String} {checksumVerified : Bool}
    (h : s.verifyIntegrity sha1 = .ok checksumVerified) :
    s.uploadedBlockCount = StreamUploader.expectedBlockCount J ∧
      s.uploadedOriginalFileSize = J.metadata.expectedSize ∧
      StreamUploader.verifyChecksum J sha1 = .ok checksumVerified := by
  unfold StreamUploader.verifyIntegrity at h
  by_cases hcount : s.uploadedBlockCount = StreamUploader.expectedBlockCount J
  · rw [if_neg (not_not.mpr hcount)] at h
    by_cases hsize : s.uploadedOriginalFileSize = J.metadata.expectedSize
    · rw [if_neg (not_not.mpr hsize)] at h
      exact ⟨hcount, hsize, h⟩
    · rw [if_pos hsize] at h
      cases h
  · rw [if_pos hcount] at h
    cases h

/-- everything is uploaded: the fields are put in order, and the manifest is made -/
theorem Core.commitFile {keys : List UploadKey} (h : Core l s) (hat : MainAt l s (.awaitingUploads keys))
    (hall : ∀ key ∈ keys, ∃ u ∈ s.uploads, u.key = key ∧ u.phase = .settled (.ok ())) :
    Inv l s.commitFile := by
  obtain ⟨hdrained, hsettled, hcomplete, hkeys⟩ := hat
  have hover : liveUploads s.uploads = [] := by
    refine List.filter_eq_nil_iff.mpr fun u hu hlive => ?_
    obtain ⟨v, hv, hkey, hphase⟩ := hall u.key (hkeys u (List.mem_filter.mpr ⟨hu, hlive⟩))
    rw [List.inj_on_of_nodup_map h.accounts.keys hv hu hkey] at hphase
    rw [hphase] at hlive
    cases hlive
  unfold StreamUploader.commitFile
  split
  · exact cleanup_inv _
  · rename_i checksumVerified hverify
    obtain ⟨hcount, hsize, hchecksum⟩ := verifyIntegrity_ok hverify
    have hblocks := sortByKey_perm Uploaded.key s.uploadedBlocks
    have hthumbnails := sortByKey_perm (fun t : Uploaded ThumbnailType => t.key.value) s.uploadedThumbnails
    refine .inr ⟨h.frame (.refl _) (.refl _)
      { h.accounts with
        blocks := hblocks.trans h.accounts.blocks
        thumbnails := hthumbnails.trans h.accounts.thumbnails } rfl rfl rfl id,
      hsettled, hcomplete.same rfl rfl, hover, sortByKey_pairwise _ _,
      sortByKey_pairwise _ _, ?_, ?_, rfl, rfl, fun expectedSha1 => verifyChecksum_ok hchecksum⟩
    · show (sortByKey _ _).length + (sortByKey _ _).length = _
      rw [hblocks.length_eq, hthumbnails.length_eq]
      exact hcount
    · show ((sortByKey _ _).map Uploaded.originalSize).sum = _
      rw [(hblocks.map _).sum_eq]
      exact hsize

theorem MainStep.keeps (h : Inv l s) (hs : MainStep s e s') : Inv (l ++ [e]) s' := by
  have hinv : s.main.over = false → Core l s ∧ MainAt l s s.main := fun hover =>
    h.resolve_left (by rw [hover]; nofun)
  cases hs with
  | thumbnailEncrypted hmain =>
    obtain ⟨hcore, hat⟩ := hinv (by rw [hmain]; rfl)
    rw [hmain] at hat
    exact (hcore.grow ⟨rfl, rfl⟩).thumbnailEncrypted hat (List.mem_append_right _ (List.mem_singleton.mpr rfl))
  | thumbnailFailed hmain => exact cleanup_inv _
  | unpaused hmain hpaused =>
    obtain ⟨hcore, _⟩ := hinv (by rw [hmain]; rfl)
    exact (hcore.grow ⟨rfl, rfl⟩).waitForUploadCapacityAndBufferedBlocks
  | raced hmain hu hkey hphase =>
    obtain ⟨hcore, _⟩ := hinv (by rw [hmain]; rfl)
    exact (hcore.grow ⟨rfl, rfl⟩).waitForUploadCapacityAndBufferedBlocks
  | raceFailed hmain hu hkey hphase => exact cleanup_inv _
  | polled hmain hcond =>
    obtain ⟨hcore, _⟩ := hinv (by rw [hmain]; rfl)
    exact (hcore.grow ⟨rfl, rfl⟩).request
  | initiated hmain =>
    obtain ⟨hcore, _⟩ := hinv (by rw [hmain]; rfl)
    exact (hcore.grow ⟨rfl, rfl⟩).initiateUpload
  | requestFailed hmain => exact cleanup_inv _
  | @encryptionAwaited error hmain hsettled =>
    obtain ⟨hcore, hat⟩ := hinv (by rw [hmain]; rfl)
    rw [hmain] at hat
    have hquiet : UploadEvent.resumed.Quiet := ⟨rfl, rfl⟩
    obtain ⟨hdrained, error', hended, hcomplete⟩ := MainAt.grow hat hquiet
    have herror : error' = error := by
      rcases hended with hended | hended
      · rw [hsettled] at hended
        cases hended
      · rw [hsettled] at hended
        exact (Encryptor.settled.inj hended).symm
    subst herror
    cases error' with
    | some e => exact cleanup_inv _
    | none =>
      refine .inr ⟨(hcore.grow hquiet).await _, hdrained.same rfl rfl, hsettled, (hcomplete rfl).same rfl rfl,
        fun u hu => ?_⟩
      show u.key ∈ s.ongoingUploads
      rw [hcore.accounts.ongoing]
      exact List.mem_map_of_mem hu
  | uploadsAwaited hmain hall =>
    obtain ⟨hcore, hat⟩ := hinv (by rw [hmain]; rfl)
    rw [hmain] at hat
    exact (hcore.grow ⟨rfl, rfl⟩).commitFile (MainAt.grow hat ⟨rfl, rfl⟩) hall
  | uploadsFailed hmain hu hkey hphase => exact cleanup_inv _
  | @thumbnailsHashed attributes hmain =>
    obtain ⟨hcore, hat⟩ := hinv (by rw [hmain]; rfl)
    rw [hmain] at hat
    have hfinished : Finished (l ++ [.resumed]) s attributes := Finished.grow hat ⟨rfl, rfl⟩
    exact .inr ⟨(hcore.grow ⟨rfl, rfl⟩).await _,
      ⟨hfinished.settled, hfinished.complete.same rfl rfl, hfinished.live, hfinished.blocks, hfinished.thumbnails,
        hfinished.count, hfinished.size, hfinished.sizes, hfinished.sha1, hfinished.verified⟩, rfl⟩
  | blocksHashed hmain => exact .inl rfl
  | committed hmain => exact .inl rfl
  | finished hmain => exact .inl rfl

/-! ## all steps -/

theorem MainAt.same {m : Main} (h : MainAt l s m) (hbeside : Beside s s') (huploads : s'.uploads = s.uploads)
    (hblocks : s'.uploadedBlocks = s.uploadedBlocks)
    (hthumbnails : s'.uploadedThumbnails = s.uploadedThumbnails) : MainAt l s' m := by
  have hdrained : Drained s → Drained s' :=
    fun h => h.same hbeside.encryptedBlocks hbeside.encryptedThumbnails
  have hcomplete : Complete l s → Complete l s' :=
    fun h => h.same hbeside.digests (congrArg uploadBlocks huploads)
  have hfinished : ∀ {a}, Finished l s a → Finished l s' a := fun {a} h =>
    { settled := hbeside.encryptor.trans h.settled
      complete := hcomplete h.complete
      live := huploads.symm ▸ h.live
      blocks := hblocks.symm ▸ h.blocks
      thumbnails := hthumbnails.symm ▸ h.thumbnails
      count := by
        unfold StreamUploader.uploadedBlockCount
        rw [hblocks, hthumbnails]
        exact h.count
      size := by
        unfold StreamUploader.uploadedOriginalFileSize
        rw [hblocks]
        exact h.size
      sizes := hblocks.symm ▸ h.sizes
      sha1 := hbeside.digests.symm ▸ h.sha1
      verified := h.verified }
  cases m with
  | encryptingThumbnail t rest =>
    obtain ⟨hidle, hnone, hnodup, done, hall, htypes⟩ := h
    exact ⟨hbeside.encryptor.trans hidle, huploads.trans hnone, hnodup, done, hall,
      hbeside.encryptedThumbnails.symm ▸ htypes⟩
  | awaitingEncryption =>
    obtain ⟨hempty, error, hover, hdone⟩ := h
    exact ⟨hdrained hempty, error, hbeside.encryptor.symm ▸ hover, fun hnone => hcomplete (hdone hnone)⟩
  | awaitingUploads keys =>
    obtain ⟨hempty, hsettled, hdone, hkeys⟩ := h
    exact ⟨hdrained hempty, hbeside.encryptor.trans hsettled, hcomplete hdone, huploads.symm ▸ hkeys⟩
  | hashingThumbnails a => exact hfinished h
  | hashingBlocks a hashes => exact ⟨hfinished h.1, h.2.trans (congrArg _ hthumbnails.symm)⟩
  | _ => trivial

/-- what the user does -/
theorem Inv.user (h : Inv l s) (he : e.Quiet) (hbeside : Beside s s') (huploads : s'.uploads = s.uploads)
    (hongoing : s'.ongoingUploads = s.ongoingUploads) (hblocks : s'.uploadedBlocks = s.uploadedBlocks)
    (hthumbnails : s'.uploadedThumbnails = s.uploadedThumbnails) (hprogress : s'.fileProgress = s.fileProgress) :
    Inv (l ++ [e]) s' := by
  unfold Inv
  rw [hbeside.main]
  refine h.imp id fun h => ?_
  obtain ⟨hcore, hat⟩ := h
  refine ⟨(hcore.grow he).frame (.of_eq ?_) (.of_eq ?_) ?_ hbeside.digests hbeside.encryptor
    hbeside.encryptionFinished hbeside.abort, (hat.grow he).same hbeside huploads hblocks hthumbnails⟩
  · unfold StreamUploader.blocks
    rw [hbeside.encryptedBlocks, huploads]
  · unfold StreamUploader.thumbnails
    rw [hbeside.encryptedThumbnails, huploads]
  · rw [huploads, hongoing, hblocks, hthumbnails, hprogress]
    exact hcore.accounts.grow e

theorem step_inv (h : Inv l s) (hs : Step s e s') : Inv (l ++ [e]) s' := by
  cases hs with
  | main hs => exact hs.keeps h
  | encryptor hs => exact hs.keeps h
  | upload hu hs => exact hs.keeps h hu
  | pause => exact h.user ⟨rfl, rfl⟩ ⟨rfl, rfl, rfl, rfl, rfl, rfl, id⟩ rfl rfl rfl rfl rfl
  | resume => exact h.user ⟨rfl, rfl⟩ ⟨rfl, rfl, rfl, rfl, rfl, rfl, id⟩ rfl rfl rfl rfl rfl
  | abort =>
    exact h.user ⟨rfl, rfl⟩ ⟨rfl, rfl, rfl, rfl, rfl, rfl, fun _ => Bool.or_true _⟩ rfl rfl rfl rfl rfl

theorem start_inv (J : UploadJob) : Inv [] (StreamUploader.start J) := by
  unfold StreamUploader.start
  split
  · rename_i hnodup
    refine Core.encryptThumbnails ⟨⟨nofun, nofun, List.nodup_nil, ?_, nofun⟩, ⟨0, ?_, ?_⟩, nofun⟩ [] rfl rfl
      hnodup rfl rfl
    · exact ⟨List.nodup_nil, rfl, .refl _, .refl _, nofun, rfl⟩
    · exact ⟨rfl, rfl, rfl⟩
    · exact .refl _
  · exact cleanup_inv _

theorem run_inv (h : Path Step (StreamUploader.start J) l s) : Inv l s :=
  h.recorded (fun _ _ _ _ => step_inv) (start_inv J)

end

end ProtonDrive.Reference
