import ProtonDrive.Reference.UploadCommit

/-!
# How much of a file is under way at once

`encryptBlocks` waits for room in the buffer before each block, but `start` compares the ongoing uploads
with `maxUploadingBlocks` only before it asks for tokens, and then starts the whole buffer.

* `Bounded`             the buffer, and the uploads that are not over;
* `startBlocks_spread`  what is started is taken from the buffer;
* `step_bounded`        every step keeps it;
* `upload_bounded`      so it holds in every run.
-/

set_option linter.unusedVariables false

namespace ProtonDrive.Reference
open Paths Encoding Chunking

/-- a block is with the crypto service, and has its room in the buffer -/
def Encryptor.encrypts {n : Nat} : Encryptor n → Bool
  | .encrypting .. | .verifying .. => true
  | _ => false

/-- `start` has seen fewer ongoing uploads than it may have -/
def Main.roomy : Main → Bool
  | .polling | .requesting _ => true
  | _ => false

/-- the ongoing uploads that `start` tolerates, and a batch -/
def uploadLimit (J : UploadJob) : Nat := MAX_UPLOADING_BLOCKS - 1 + MAX_BUFFERED_BLOCKS + J.thumbnails.length

def BlockUploadRequest.Small (J : UploadJob) (request : BlockUploadRequest) : Prop :=
  request.contentBlocks.length ≤ MAX_BUFFERED_BLOCKS ∧ request.thumbnails.length ≤ J.thumbnails.length

section
variable {J : UploadJob} {l : List UploadEvent} {s s' : StreamUploader J} {e : UploadEvent}

structure Bounded (s : StreamUploader J) : Prop where
  buffered : s.encryptedBlocks.length ≤ MAX_BUFFERED_BLOCKS
  room : s.encryptor.encrypts = true → s.encryptedBlocks.length < MAX_BUFFERED_BLOCKS
  capacity : s.maxUploadingBlocks ≤ MAX_UPLOADING_BLOCKS
  waited : s.main.roomy = true → (liveUploads s.uploads).length < MAX_UPLOADING_BLOCKS
  uploading : (liveUploads s.uploads).length ≤ uploadLimit J
  asked : ∀ request, s.main = .requesting request → request.Small J

/-! ## `start` -/

/-- where `start` neither waits for a block nor for tokens -/
theorem Bounded.elsewhere (h : Bounded s) (hblocks : s'.encryptedBlocks.length ≤ s.encryptedBlocks.length)
    (hencryptor : s'.encryptor.encrypts = true → s.encryptor.encrypts = true)
    (hmax : s'.maxUploadingBlocks = s.maxUploadingBlocks) (huploads : s'.uploads = s.uploads)
    (hmain : s'.main.roomy = false) : Bounded s' where
  buffered := hblocks.trans h.buffered
  room henc := Nat.lt_of_le_of_lt hblocks (h.room (hencryptor henc))
  capacity := hmax ▸ h.capacity
  waited hroomy := by
    rw [hmain] at hroomy
    cases hroomy
  uploading := huploads ▸ h.uploading
  asked request hasked := by
    rw [hasked] at hmain
    cases hmain

theorem Bounded.await (h : Bounded s) {m : Main} (hm : m.roomy = false) : Bounded (s.await m) :=
  h.elsewhere le_rfl id rfl rfl hm

theorem Bounded.cleanup (h : Bounded s) (r : Except Thrown Unit) : Bounded (s.cleanup r) :=
  h.elsewhere (Nat.zero_le _) id rfl rfl rfl

theorem Bounded.leave (h : Bounded s) : Bounded s.leave := by
  unfold StreamUploader.leave
  split
  · exact h.cleanup _
  · split
    · exact h.cleanup _
    · exact h.await rfl

theorem Bounded.loop (h : Bounded s) : Bounded s.loop := by
  unfold StreamUploader.loop
  split
  · exact h.leave
  · exact h.await rfl

theorem Bounded.encryptThumbnails (h : Bounded s) (rest : List Thumbnail) :
    Bounded (s.encryptThumbnails rest) := by
  have hcall : Bounded s.encryptAndUploadBlocks := by
    refine Bounded.loop ⟨h.buffered, nofun, h.capacity, h.waited, h.uploading, h.asked⟩
  cases rest with
  | nil => exact hcall
  | cons t rest =>
    show Bounded (if s.isUploadAborted = true then s.encryptAndUploadBlocks
      else s.await (.encryptingThumbnail t rest))
    split
    · exact hcall
    · exact h.await rfl

/-- the only place where the uploads are counted -/
theorem Bounded.waitForUploadCapacityAndBufferedBlocks (h : Bounded s) (hcore : Core l s) :
    Bounded s.waitForUploadCapacityAndBufferedBlocks := by
  unfold StreamUploader.waitForUploadCapacityAndBufferedBlocks
  split
  · exact h.await rfl
  · rename_i hfew
    refine ⟨h.buffered, h.room, h.capacity, fun _ => ?_, h.uploading, nofun⟩
    have hcapacity := h.capacity
    have hongoing := congrArg List.length hcore.accounts.ongoing
    rw [List.length_map] at hongoing
    show (liveUploads s.uploads).length < MAX_UPLOADING_BLOCKS
    omega

/-- no more thumbnails are left than there are -/
theorem Core.thumbnails_le (h : Core l s) : s.encryptedThumbnails.length ≤ J.thumbnails.length := by
  have hsubset : s.thumbnails.map EncryptedThumbnail.type ⊆ J.thumbnails.map Thumbnail.type := by
    intro type htype
    obtain ⟨t, ht, rfl⟩ := List.mem_map.mp htype
    obtain ⟨thumbnail, hmem, _, heq, _⟩ := h.toParts.thumbnails t ht
    rw [heq]
    exact List.mem_map_of_mem hmem
  have hle := (List.subperm_of_subset h.types hsubset).length_le
  rw [List.length_map, List.length_map] at hle
  unfold StreamUploader.thumbnails at hle
  rw [List.length_append] at hle
  omega

theorem Bounded.request (h : Bounded s) (hcore : Core l s) (hmain : s.main = .polling) :
    Bounded s.request := by
  unfold StreamUploader.request
  split
  · exact h.leave
  · refine ⟨h.buffered, h.room, h.capacity, fun _ => h.waited (by rw [hmain]; rfl), h.uploading, ?_⟩
    intro request hasked
    rw [← Main.requesting.inj hasked]
    refine ⟨?_, ?_⟩
    · show (s.encryptedBlocks.map EncryptedBlock.content).length ≤ _
      rw [List.length_map]
      exact h.buffered
    · show (s.encryptedThumbnails.map EncryptedThumbnail.type).length ≤ _
      rw [List.length_map]
      exact hcore.thumbnails_le

/-! ### a batch -/

/-- the parts that `start` holds or has on the wire -/
def StreamUploader.spread (s : StreamUploader J) : Nat :=
  (liveUploads s.uploads).length + s.encryptedBlocks.length + s.encryptedThumbnails.length

/-- uploads are started with what is taken from the buffers -/
structure Spread (s s' : StreamUploader J) : Prop where
  spread : s'.spread ≤ s.spread
  blocks : s'.encryptedBlocks.length ≤ s.encryptedBlocks.length
  encryptor : s'.encryptor = s.encryptor
  max : s'.maxUploadingBlocks = s.maxUploadingBlocks

theorem Spread.refl (s : StreamUploader J) : Spread s s := ⟨le_rfl, le_rfl, rfl, rfl⟩

theorem Spread.trans {s'' : StreamUploader J} (h : Spread s s') (h' : Spread s' s'') : Spread s s'' :=
  ⟨h'.spread.trans h.spread, h'.blocks.trans h.blocks, h'.encryptor.trans h.encryptor, h'.max.trans h.max⟩

theorem mapDelete_length_lt {α κ : Type} [DecidableEq κ] (key : α → κ) {as : List α} {a : α} (ha : a ∈ as) :
    (mapDelete key as (key a)).length < as.length :=
  List.length_filter_lt_length_iff_exists.mpr ⟨a, ha, by simp⟩

theorem startUpload_live (s : StreamUploader J) (part : Part) (bareUrl token : String) :
    (liveUploads (s.startUpload part bareUrl token).uploads).length = (liveUploads s.uploads).length + 1 := by
  show (liveUploads (s.uploads ++ [_])).length = _
  rw [liveUploads_append, List.length_append]
  rfl

theorem startThumbnail_spread {t : EncryptedThumbnail} {bareUrl token : String}
    (ht : t ∈ s.encryptedThumbnails) :
    Spread s (({ s with
      encryptedThumbnails := mapDelete EncryptedThumbnail.type s.encryptedThumbnails t.type } :
        StreamUploader J).startUpload (.thumbnail t) bareUrl token) := by
  have hless := mapDelete_length_lt EncryptedThumbnail.type ht
  refine ⟨?_, le_rfl, rfl, rfl⟩
  unfold StreamUploader.spread
  rw [startUpload_live]
  show (liveUploads s.uploads).length + 1 + s.encryptedBlocks.length + (mapDelete _ _ _).length ≤ _
  omega

theorem startBlock_spread {b : EncryptedBlock} {bareUrl token : String} (hb : b ∈ s.encryptedBlocks) :
    Spread s (({ s with encryptedBlocks := mapDelete EncryptedBlock.index s.encryptedBlocks b.index } :
        StreamUploader J).startUpload (.block b) bareUrl token) := by
  have hless := mapDelete_length_lt EncryptedBlock.index hb
  refine ⟨?_, Nat.le_of_lt hless, rfl, rfl⟩
  unfold StreamUploader.spread
  rw [startUpload_live]
  show (liveUploads s.uploads).length + 1 + (mapDelete _ _ _).length + s.encryptedThumbnails.length ≤ _
  omega

theorem startThumbnails_spread (s : StreamUploader J) (tokens : List (UploadToken ThumbnailType)) :
    Spread s (s.startThumbnails tokens).1 := by
  induction tokens generalizing s with
  | nil => exact .refl s
  | cons token tokens ih =>
    unfold StreamUploader.startThumbnails
    split
    · exact .refl s
    · rename_i t hget
      obtain ⟨ht, hkey⟩ := mapGet_some hget
      rw [← hkey]
      exact (startThumbnail_spread ht).trans (ih _)

theorem startBlocks_spread (s : StreamUploader J) (tokens : List (UploadToken Nat)) :
    Spread s (s.startBlocks tokens).1 := by
  induction tokens generalizing s with
  | nil => exact .refl s
  | cons token tokens ih =>
    unfold StreamUploader.startBlocks
    split
    · exact .refl s
    · rename_i b hget
      obtain ⟨hb, hkey⟩ := mapGet_some hget
      rw [← hkey]
      exact (startBlock_spread hb).trans (ih _)

/-- a batch is started when there is room for an upload, however large it is -/
theorem Spread.bounded (h : Bounded s) (hroomy : s.main.roomy = true) (hcore : Core l s)
    (hspread : Spread s s') (m : Main) (hm : m.roomy = false) : Bounded { s' with main := m } where
  buffered := hspread.blocks.trans h.buffered
  room henc := Nat.lt_of_le_of_lt hspread.blocks (h.room (hspread.encryptor ▸ henc))
  capacity := hspread.max ▸ h.capacity
  waited hm' := by
    have hm' : m.roomy = true := hm'
    rw [hm] at hm'
    cases hm'
  uploading := by
    have hall := hspread.spread
    have hlive := h.waited hroomy
    have hbuffered := h.buffered
    have hthumbnails := hcore.thumbnails_le
    unfold StreamUploader.spread at hall
    unfold uploadLimit
    show (liveUploads s'.uploads).length ≤ _
    omega
  asked request hasked := by
    have hasked : m = .requesting request := hasked
    rw [hasked] at hm
    cases hm

theorem Bounded.initiateUpload {tokens : UploadTokens} (h : Bounded s) (hroomy : s.main.roomy = true)
    (hcore : Core l s) : Bounded (s.initiateUpload tokens) := by
  unfold StreamUploader.initiateUpload
  split
  · exact h.cleanup _
  · have hthumbnails := startThumbnails_spread s tokens.thumbnailTokens
    split
    · rename_i s₁ e₁ hstart
      rw [hstart] at hthumbnails
      exact (Spread.bounded h hroomy hcore hthumbnails .pausing rfl).cleanup _
    · rename_i s₁ hstart
      rw [hstart] at hthumbnails
      have hblocks := startBlocks_spread s₁ tokens.blockTokens
      have hall := Spread.bounded h hroomy hcore (hthumbnails.trans hblocks) .pausing rfl
      unfold StreamUploader.endIteration
      split
      · rename_i s₂ e₂ hstart₂
        rw [hstart₂] at hall
        exact hall.cleanup _
      · rename_i s₂ hstart₂
        rw [hstart₂] at hall
        split
        · exact hall.leave
        · exact hall.loop

theorem MainStep.bounded (h : Bounded s) (hinv : Inv l s) (hs : MainStep s e s') : Bounded s' := by
  have hcore : s.main.over = false → Core l s := fun hover => (hinv.resolve_left (by rw [hover]; nofun)).1
  cases hs with
  | thumbnailEncrypted hmain =>
    refine Bounded.encryptThumbnails ?_ _
    exact ⟨h.buffered, h.room, h.capacity, h.waited, h.uploading, h.asked⟩
  | thumbnailFailed hmain => exact h.cleanup _
  | unpaused hmain hpaused => exact h.waitForUploadCapacityAndBufferedBlocks (hcore (by rw [hmain]; rfl))
  | raced hmain hu hkey hphase =>
    exact h.waitForUploadCapacityAndBufferedBlocks (hcore (by rw [hmain]; rfl))
  | raceFailed hmain hu hkey hphase => exact h.cleanup _
  | polled hmain hcond => exact h.request (hcore (by rw [hmain]; rfl)) hmain
  | initiated hmain => exact h.initiateUpload (by rw [hmain]; rfl) (hcore (by rw [hmain]; rfl))
  | requestFailed hmain => exact h.cleanup _
  | @encryptionAwaited error hmain hsettled =>
    cases error with
    | some e => exact h.cleanup _
    | none => exact h.await rfl
  | uploadsAwaited hmain hall =>
    unfold StreamUploader.commitFile
    split
    · exact h.cleanup _
    · exact h.elsewhere le_rfl id rfl rfl rfl
  | uploadsFailed hmain hu hkey hphase => exact h.cleanup _
  | thumbnailsHashed hmain => exact h.await rfl
  | blocksHashed hmain => exact h.await rfl
  | committed hmain => exact h.cleanup _
  | finished hmain => exact h.await rfl

/-! ## `encryptBlocks` and the uploads -/

/-- what the encryption leaves alone, but for the buffer -/
structure Apart (s s' : StreamUploader J) : Prop where
  max : s'.maxUploadingBlocks = s.maxUploadingBlocks
  uploads : s'.uploads = s.uploads
  main : s'.main = s.main

theorem Bounded.apart (h : Bounded s) (hs : Apart s s')
    (hbuffered : s'.encryptedBlocks.length ≤ MAX_BUFFERED_BLOCKS)
    (hroom : s'.encryptor.encrypts = true → s'.encryptedBlocks.length < MAX_BUFFERED_BLOCKS) : Bounded s' where
  buffered := hbuffered
  room := hroom
  capacity := hs.max ▸ h.capacity
  waited := by
    rw [hs.main, hs.uploads]
    exact h.waited
  uploading := hs.uploads ▸ h.uploading
  asked := by
    rw [hs.main]
    exact h.asked

/-- the generator is resumed: the block before is handed over, or lost -/
structure Resumes (s s' : StreamUploader J) : Prop extends Apart s s' where
  blocks : s'.encryptedBlocks = s.encryptedBlocks
  encrypts : s'.encryptor.encrypts = false

theorem pull_resumes (s : StreamUploader J) (reader : ChunkStreamReader J.chunkSize) (index : Nat) :
    Resumes s (s.pull reader index) := by
  unfold StreamUploader.pull
  split <;> exact ⟨⟨rfl, rfl, rfl⟩, rfl, rfl⟩

theorem streamDone_resumes (s : StreamUploader J) (reader : ChunkStreamReader J.chunkSize) (index : Nat) :
    Resumes s (s.streamDone reader index) := by
  unfold StreamUploader.streamDone
  split <;> exact ⟨⟨rfl, rfl, rfl⟩, rfl, rfl⟩

theorem next_resumes (s : StreamUploader J) (rest : Option (ChunkStreamReader J.chunkSize)) (index : Nat) :
    Resumes s (s.next rest index) := by
  cases rest with
  | some reader => exact pull_resumes s reader index
  | none => exact ⟨⟨rfl, rfl, rfl⟩, rfl, rfl⟩

theorem Resumes.bounded (h : Bounded s) (hs : Resumes s s') : Bounded s' := by
  refine h.apart hs.toApart (hs.blocks ▸ h.buffered) fun henc => ?_
  rw [hs.encrypts] at henc
  cases henc

/-- a block is encrypted once more, or it is the last -/
theorem Bounded.encryptionFailed {rest : Option (ChunkStreamReader J.chunkSize)} {index attempt : Nat}
    {block : Bytes} {e : Thrown} (h : Bounded s) (henc : s.encryptor.encrypts = true) :
    Bounded (s.encryptionFailed rest index block attempt e) := by
  unfold StreamUploader.encryptionFailed
  split
  · exact h.apart ⟨rfl, rfl, rfl⟩ h.buffered nofun
  · split
    · exact h.apart ⟨rfl, rfl, rfl⟩ h.buffered fun _ => h.room henc
    · exact h.apart ⟨rfl, rfl, rfl⟩ h.buffered nofun

theorem mapSet_length_le {α κ : Type} [DecidableEq κ] (key : α → κ) (as : List α) (a : α) :
    (mapSet key as a).length ≤ as.length + 1 := by
  unfold mapSet
  split
  · rw [List.length_map]
    omega
  · rw [List.length_append, List.length_singleton]

theorem EncryptorStep.bounded (h : Bounded s) (hs : EncryptorStep s e s') : Bounded s' := by
  cases hs with
  | read henc => exact (pull_resumes _ _ _).bounded h
  | readDone henc => exact (streamDone_resumes _ _ _).bounded h
  | readFailed henc => exact h.apart ⟨rfl, rfl, rfl⟩ h.buffered nofun
  | unpaused henc hpaused => exact h.apart ⟨rfl, rfl, rfl⟩ h.buffered nofun
  | buffered henc hcond =>
    unfold StreamUploader.buffered
    split
    · exact h.apart ⟨rfl, rfl, rfl⟩ h.buffered nofun
    · rename_i hgoing
      obtain ⟨_, hnot⟩ := isUploadAborted_eq_false (eq_false_of_ne_true hgoing)
      refine h.apart ⟨rfl, rfl, rfl⟩ h.buffered fun _ => hcond.resolve_right ?_
      rw [hnot]
      nofun
  | encrypted henc => exact h.apart ⟨rfl, rfl, rfl⟩ h.buffered fun _ => h.room (by rw [henc]; rfl)
  | encryptFailed henc => exact h.encryptionFailed (by rw [henc]; rfl)
  | @verified rest index block attempt data signature henc =>
    have hroom := h.room (by rw [henc]; rfl)
    have hset := mapSet_length_le EncryptedBlock.index s.encryptedBlocks
      (StreamUploader.encryptedBlock J index block data signature)
    have hnext := next_resumes (s.setBlock (StreamUploader.encryptedBlock J index block data signature)) rest index
    refine h.apart ⟨hnext.max, hnext.uploads, hnext.main⟩ ?_ fun henc' => ?_
    · show (StreamUploader.next _ rest index).encryptedBlocks.length ≤ _
      rw [hnext.blocks]
      exact hset.trans hroom
    · have henc' : (StreamUploader.next _ rest index).encryptor.encrypts = true := henc'
      rw [hnext.encrypts] at henc'
      cases henc'
  | verifyFailed henc => exact h.encryptionFailed (by rw [henc]; rfl)
  | @caught error henc =>
    cases error with
    | none => exact h.apart ⟨rfl, rfl, rfl⟩ h.buffered nofun
    | some e =>
      show Bounded { s.abortUpload e with encryptor := .settled (some e) }
      rw [abortUpload_eq]
      exact h.apart ⟨rfl, rfl, rfl⟩ h.buffered nofun

/-- a timeout leaves room for one upload only -/
theorem UploadStep.max {u : Upload} {x : StreamUploader J × Upload} (hs : UploadStep s u e x) :
    x.1.maxUploadingBlocks = s.maxUploadingBlocks ∨ x.1.maxUploadingBlocks = 1 := by
  have hfailed : ∀ address attempt e, (s.uploadFailed u address attempt e).1.maxUploadingBlocks =
      s.maxUploadingBlocks ∨ (s.uploadFailed u address attempt e).1.maxUploadingBlocks = 1 := by
    intro address attempt e
    unfold StreamUploader.uploadFailed
    split
    · exact .inl rfl
    · unfold StreamUploader.uploadRolledBack
      split
      · exact .inr rfl
      · exact .inl rfl
      · unfold StreamUploader.uploadRetried
        split
        · exact .inl rfl
        · left
          rw [abortUpload_eq]
  cases hs with
  | sent h =>
    left
    show (s.uploadDone u.part).maxUploadingBlocks = _
    cases u.part <;> rfl
  | failed h => exact hfailed _ _ _
  | unaddressed h => exact hfailed _ _ _
  | _ => exact .inl rfl

theorem UploadStep.bounded {u u' : Upload} {pre post : List Upload} (h : Bounded s)
    (hu : s.uploads = pre ++ u :: post) (hs : UploadStep s u e (s', u')) :
    Bounded (s'.withUploads (pre ++ u' :: post)) := by
  have hbeside : Beside s s' := hs.beside.1
  have hmax : s'.maxUploadingBlocks ≤ MAX_UPLOADING_BLOCKS := by
    rcases hs.max with hmax | hmax
    · exact hmax ▸ h.capacity
    · exact hmax ▸ (by decide)
  have hlive : (liveUploads (pre ++ u' :: post)).length ≤ (liveUploads s.uploads).length := by
    rw [hu, liveUploads_append, liveUploads_append, liveUploads_cons, liveUploads_cons, if_pos hs.inv.2.1,
      List.length_append, List.length_append, List.length_cons]
    split
    · rw [List.length_cons]
    · omega
  refine ⟨?_, ?_, hmax, fun hroomy => Nat.lt_of_le_of_lt hlive (h.waited ?_), hlive.trans h.uploading, ?_⟩
  · show s'.encryptedBlocks.length ≤ _
    exact hbeside.encryptedBlocks ▸ h.buffered
  · show s'.encryptor.encrypts = true → s'.encryptedBlocks.length < _
    rw [hbeside.encryptor, hbeside.encryptedBlocks]
    exact h.room
  · exact hbeside.main ▸ hroomy
  · show ∀ request, s'.main = .requesting request → request.Small J
    exact hbeside.main ▸ h.asked

/-! ## every run -/

theorem step_bounded (h : Bounded s) (hinv : Inv l s) (hs : Step s e s') : Bounded s' := by
  cases hs with
  | main hs => exact hs.bounded h hinv
  | encryptor hs => exact hs.bounded h
  | upload hu hs => exact hs.bounded h hu
  | pause => exact h.apart ⟨rfl, rfl, rfl⟩ h.buffered h.room
  | resume => exact h.apart ⟨rfl, rfl, rfl⟩ h.buffered h.room
  | abort => exact h.apart ⟨rfl, rfl, rfl⟩ h.buffered h.room

theorem start_bounded (J : UploadJob) : Bounded (StreamUploader.start J) := by
  have hstart : ∀ s : StreamUploader J, s.encryptedBlocks = [] → s.maxUploadingBlocks = MAX_UPLOADING_BLOCKS →
      s.main = .pausing → s.uploads = [] → Bounded s := by
    intro s hblocks hmax hmain huploads
    refine ⟨hblocks ▸ Nat.zero_le _, fun _ => hblocks ▸ by decide, hmax ▸ le_rfl, ?_, huploads ▸ Nat.zero_le _, ?_⟩
    · rw [hmain]
      exact nofun
    · rw [hmain]
      exact nofun
  unfold StreamUploader.start
  split
  · exact (hstart _ rfl rfl rfl rfl).encryptThumbnails _
  · exact (hstart _ rfl rfl rfl rfl).cleanup _

/-- only `start` and a new token for one block ask for tokens -/
theorem Step.small {request : BlockUploadRequest} {answer : Except Thrown UploadTokens} (h : Bounded s)
    (hs : Step s (.requestBlockUpload request answer) s') : request.contentBlocks.length ≤ MAX_BUFFERED_BLOCKS ∧
      request.thumbnails.length ≤ J.thumbnails.length := by
  cases hs with
  | main hs =>
    cases hs with
    | initiated hmain => exact h.asked _ hmain
    | requestFailed hmain => exact h.asked _ hmain
  | encryptor hs => cases hs
  | upload hu hs =>
    cases hs with
    | refreshed hpart hphase => exact ⟨Nat.succ_le_succ (Nat.zero_le _), Nat.zero_le _⟩
    | refreshFailed hpart hphase => exact ⟨Nat.succ_le_succ (Nat.zero_le _), Nat.zero_le _⟩

/-- the requests of a run, and where it is -/
structure Paced (l : List UploadEvent) (s : StreamUploader J) : Prop where
  inv : Inv l s
  bounded : Bounded s
  requests : ∀ request answer, .requestBlockUpload request answer ∈ l → request.Small J

theorem upload_bounded (h : Path Step (StreamUploader.start J) l s) :
    s.encryptedBlocks.length ≤ MAX_BUFFERED_BLOCKS ∧
      (liveUploads s.uploads).length ≤ uploadLimit J ∧
      (s.main.roomy = true → s.ongoingUploads.length < MAX_UPLOADING_BLOCKS) ∧
      ∀ request answer, .requestBlockUpload request answer ∈ l →
        request.contentBlocks.length ≤ MAX_BUFFERED_BLOCKS ∧
          request.thumbnails.length ≤ J.thumbnails.length := by
  have hall : Paced l s := by
    refine h.recorded (I := Paced) (fun l s e s' h hs => ?_) ⟨start_inv J, start_bounded J, nofun⟩
    refine ⟨step_inv h.inv hs, step_bounded h.bounded h.inv hs, fun request answer hmem => ?_⟩
    rcases List.mem_append.mp hmem with hmem | hmem
    · exact h.requests request answer hmem
    · rw [← List.mem_singleton.mp hmem] at hs
      exact hs.small h.bounded
  refine ⟨hall.bounded.buffered, hall.bounded.uploading, fun hroomy => ?_, hall.requests⟩
  have hover : s.main.over = false := by
    cases hmain : s.main <;> rw [hmain] at hroomy <;> first | rfl | cases hroomy
  have hcore := (hall.inv.resolve_left (by rw [hover]; nofun)).1
  have hwaited := hall.bounded.waited hroomy
  rw [hcore.accounts.ongoing, List.length_map]
  exact hwaited

end

theorem shortUpload_bounded : ∃ c, ∃ s : StreamUploader shortJob,
    Path Step (StreamUploader.start shortJob) (shortUpload ++ [.commitDraft c]) s ∧
      s.encryptedBlocks.length ≤ 15 ∧ (liveUploads s.uploads).length ≤ 19 :=
  have ⟨c, s, hrun, _⟩ := shortUpload_runs
  have ⟨hbuffered, huploading, _⟩ := upload_bounded hrun
  ⟨c, s, hrun, hbuffered, huploading⟩

end ProtonDrive.Reference
