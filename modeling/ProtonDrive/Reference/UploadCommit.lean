import ProtonDrive.Reference.UploadInvariant

/-!
# What the reference client commits

`commitDraft` is called when `start` believes that every part is uploaded.  What it gets is read off the
invariant; that nothing is missing is only the doing of `verifyIntegrity`, since an upload whose request for
a new token fails is lost without an error.

* `Committed`           what the commit says, and of which blocks and thumbnails;
* `all_of_sum_le`       a part of a list that weighs as much as the list;
* `commit_complete`     in every run: the manifest is that of blocks of the stream that the storage has
                        acknowledged, in their order, and of all of them if the stream is not longer than was
                        announced.
-/

set_option linter.unusedVariables false

namespace ProtonDrive.Reference
open Encoding Paths Chunking Sorting

/-! ## lists -/

section
variable {α β : Type} {f : α → β}

theorem exists_of_perm_map {as bs : List β} (h : as.Perm bs) {xs : List α} (has : as = xs.map f) :
    ∃ ys : List α, ys.Perm xs ∧ bs = ys.map f := by
  induction h generalizing xs with
  | nil => exact ⟨xs, .refl _, has⟩
  | cons b _ ih =>
    cases xs with
    | nil => cases has
    | cons x xs =>
      obtain ⟨hx, hxs⟩ := List.cons.inj has
      obtain ⟨ys, hperm, rfl⟩ := ih hxs
      exact ⟨x :: ys, hperm.cons x, hx ▸ rfl⟩
  | swap b c l =>
    match xs, has with
    | x :: y :: xs, has =>
      obtain ⟨hx, hyxs⟩ := List.cons.inj has
      obtain ⟨hy, hxs⟩ := List.cons.inj hyxs
      exact ⟨y :: x :: xs, .swap x y xs, by rw [hx, hy, hxs]; rfl⟩
  | trans _ _ ih ih' =>
    obtain ⟨ys, hperm, hys⟩ := ih has
    obtain ⟨zs, hperm', hzs⟩ := ih' hys
    exact ⟨zs, hperm'.trans hperm, hzs⟩

theorem exists_map_of_perm {as : List β} {xs : List α} (h : as.Perm (xs.map f)) :
    ∃ ys : List α, ys.Perm xs ∧ as = ys.map f := exists_of_perm_map h.symm rfl

/-- a part that weighs as much as the whole list is the list, if every item weighs something -/
theorem all_of_sum_le {weight : α → Nat} {l l' : List α} (hsub : l'.Sublist l)
    (hpos : ∀ a ∈ l, 0 < weight a) (hle : (l.map weight).sum ≤ (l'.map weight).sum) : l' = l := by
  have hpart : ∀ {l l' : List α}, l'.Sublist l → (l'.map weight).sum ≤ (l.map weight).sum := by
    intro l l' hsub
    induction hsub with
    | slnil => exact le_rfl
    | cons a _ ih =>
      rw [List.map_cons, List.sum_cons]
      omega
    | cons_cons a _ ih =>
      rw [List.map_cons, List.map_cons, List.sum_cons, List.sum_cons]
      omega
  induction hsub with
  | slnil => rfl
  | cons a hsub ih =>
    -- the item that is left out weighs too much
    have hless := hpart hsub
    have ha := hpos a List.mem_cons_self
    rw [List.map_cons, List.sum_cons] at hle
    omega
  | cons_cons a hsub ih =>
    rw [List.map_cons, List.map_cons, List.sum_cons, List.sum_cons] at hle
    rw [ih (fun b hb => hpos b (List.mem_cons_of_mem _ hb)) (by omega)]

theorem strict_of_nodup {key : α → Nat} {l : List α} (h : l.Pairwise (KeyLE key))
    (hnodup : (l.map key).Nodup) : l.Pairwise fun a b => key a < key b := by
  have hne : l.Pairwise fun a b => key a ≠ key b := List.pairwise_map.mp hnodup
  exact (h.and hne).imp fun h => Nat.lt_of_le_of_ne h.1 h.2

/-- an item for each number of a range, in their order -/
theorem keys_of_strict {key : α → Nat} {l : List α} {n : Nat} (h : l.Pairwise fun a b => key a < key b)
    (hperm : (l.map key).Perm (List.range' 1 n)) : l.map key = List.range' 1 n := by
  have hkeys : (l.map key).Pairwise (· < ·) := List.pairwise_map.mpr h
  exact hperm.eq_of_pairwise (fun a b _ _ hab hba => absurd hab (Nat.lt_asymm hba)) hkeys
    List.pairwise_lt_range'

end

/-! ## the commit -/

/-- what `c` commits, after `l`: of the chunks of the stream, the blocks and the thumbnails -/
structure Committed (J : UploadJob) (l : List UploadEvent) (c : Commit) (chunks : List Bytes)
    (blocks : List EncryptedBlock) (thumbnails : List EncryptedThumbnail) : Prop where
  whole : Whole J.chunkSize l chunks
  stored : ∀ b ∈ blocks, Encrypted J l chunks b ∧
    ∃ address, .uploadBlock address b.encryptedData (.ok ()) ∈ l
  thumbnailsStored : ∀ t ∈ thumbnails, ThumbnailEncrypted J l t ∧
    ∃ address, .uploadBlock address t.encryptedData (.ok ()) ∈ l
  ordered : blocks.Pairwise fun a b => a.index < b.index
  thumbnailsOrdered : thumbnails.Pairwise fun a b => a.type.value < b.type.value
  manifest : c.manifest =
    (thumbnails.map EncryptedThumbnail.hash ++ blocks.map EncryptedBlock.hash).flatten
  blockSizes : c.blockSizes = blocks.map EncryptedBlock.originalSize
  size : c.size = J.metadata.expectedSize ∧ c.blockSizes.sum = J.metadata.expectedSize
  count : blocks.length + thumbnails.length = StreamUploader.expectedBlockCount J
  sha1 : c.sha1 = Hex.encode (J.sha1 (delivered l))
  verified : ∀ expectedSha1, J.metadata.expectedSha1 = some expectedSha1 → expectedSha1 ≠ "" →
    c.sha1 = expectedSha1 ∧ c.checksumVerified = true
  first : ∀ e ∈ l, e.isCommit = false

section
variable {J : UploadJob} {l : List UploadEvent} {s s' : StreamUploader J} {chunks : List Bytes}

/-- only `start` commits -/
theorem Step.commit_inv {c : Commit} (hs : Step s (.commitDraft c) s') :
    ∃ attributes hashes, s.main = .hashingBlocks attributes hashes ∧ c = s.commit attributes hashes := by
  cases hs with
  | main hs =>
    cases hs with
    | blocksHashed hmain => exact ⟨_, _, hmain, rfl⟩
  | encryptor hs => cases hs
  | upload hu hs => cases hs

theorem mem_pushed {b : EncryptedBlock} {uploads : List Upload} (h : b ∈ uploadBlocks (pushedUploads uploads)) :
    ∃ u ∈ uploads, u.phase.pushed = true ∧ u.part = .block b := by
  obtain ⟨u, hu, hb⟩ := List.mem_filterMap.mp h
  obtain ⟨hu, hpushed⟩ := List.mem_filter.mp hu
  refine ⟨u, hu, hpushed, ?_⟩
  cases hpart : u.part with
  | thumbnail t =>
    rw [hpart] at hb
    cases hb
  | block b' =>
    rw [hpart] at hb
    rw [Option.some.inj hb]

theorem mem_pushedThumbnails {t : EncryptedThumbnail} {uploads : List Upload}
    (h : t ∈ uploadThumbnails (pushedUploads uploads)) :
    ∃ u ∈ uploads, u.phase.pushed = true ∧ u.part = .thumbnail t := by
  obtain ⟨u, hu, ht⟩ := List.mem_filterMap.mp h
  obtain ⟨hu, hpushed⟩ := List.mem_filter.mp hu
  refine ⟨u, hu, hpushed, ?_⟩
  cases hpart : u.part with
  | thumbnail t' =>
    rw [hpart] at ht
    rw [Option.some.inj ht]
  | block b =>
    rw [hpart] at ht
    cases ht

theorem pushedBlocks_sublist (uploads : List Upload) :
    (uploadBlocks (pushedUploads uploads)).Sublist (uploadBlocks uploads) :=
  List.filter_sublist.filterMap _

theorem pushedThumbnails_sublist (uploads : List Upload) :
    (uploadThumbnails (pushedUploads uploads)).Sublist (uploadThumbnails uploads) :=
  List.filter_sublist.filterMap _

theorem ThumbnailType.value_inj {a b : ThumbnailType} (h : a.value = b.value) : a = b := by
  cases a <;> cases b <;> first | rfl | cases h

/-- the blocks behind the fields of the class, and the thumbnails -/
theorem Finished.committed {a : Attributes} {hashes : List Bytes} (h : Finished l s a) (hcore : Core l s)
    (hhashes : hashes = s.uploadedThumbnails.map Uploaded.hash) :
    ∃ blocks thumbnails, Committed J l (s.commit a hashes) s.digests.updates blocks thumbnails ∧
      blocks.Perm (uploadBlocks (pushedUploads s.uploads)) ∧
      thumbnails.Perm (uploadThumbnails (pushedUploads s.uploads)) := by
  obtain ⟨blocks, hblocks, hmeta⟩ := exists_map_of_perm hcore.accounts.blocks
  obtain ⟨thumbnails, hthumbnails, hmeta'⟩ := exists_map_of_perm hcore.accounts.thumbnails
  have hindexes : (blocks.map EncryptedBlock.index).Nodup := by
    have hall := h.complete.blocks.nodup_iff.mpr List.nodup_range'
    exact (hblocks.map _).nodup_iff.mpr (hall.sublist ((pushedBlocks_sublist s.uploads).map _))
  have htypes : (thumbnails.map fun t => t.type.value).Nodup := by
    have hall : ((uploadThumbnails s.uploads).map EncryptedThumbnail.type).Nodup := by
      have htypes := hcore.types
      unfold StreamUploader.thumbnails at htypes
      rw [List.map_append] at htypes
      exact htypes.of_append_right
    have hpushed := hall.sublist ((pushedThumbnails_sublist s.uploads).map _)
    have htypes := ((hthumbnails.map EncryptedThumbnail.type).nodup_iff.mpr hpushed).map
      fun _ _ => ThumbnailType.value_inj
    rw [List.map_map] at htypes
    exact htypes
  have hordered := h.blocks
  have hordered' := h.thumbnails
  rw [hmeta, List.pairwise_map] at hordered
  rw [hmeta', List.pairwise_map] at hordered'
  have hsizes : (s.commit a hashes).blockSizes = blocks.map EncryptedBlock.originalSize := by
    show a.blockSizes = _
    rw [h.sizes, hmeta, List.map_map]
    rfl
  refine ⟨blocks, thumbnails, ⟨h.complete.whole, fun b hb => ?_, fun t ht => ?_, ?_, ?_, ?_, hsizes, ⟨rfl, ?_⟩,
    ?_, ?_, h.verified, hcore.uncommitted⟩, hblocks, hthumbnails⟩
  · obtain ⟨u, hu, hpushed, hpart⟩ := mem_pushed (hblocks.subset hb)
    obtain ⟨address, hstored⟩ := hcore.accounts.stored u hu hpushed
    rw [hpart] at hstored
    refine ⟨hcore.blocks b (List.mem_append_right _ ?_), address, hstored⟩
    exact (pushedBlocks_sublist s.uploads).subset (hblocks.subset hb)
  · obtain ⟨u, hu, hpushed, hpart⟩ := mem_pushedThumbnails (hthumbnails.subset ht)
    obtain ⟨address, hstored⟩ := hcore.accounts.stored u hu hpushed
    rw [hpart] at hstored
    refine ⟨hcore.toParts.thumbnails t (List.mem_append_right _ ?_), address, hstored⟩
    exact (pushedThumbnails_sublist s.uploads).subset (hthumbnails.subset ht)
  · exact strict_of_nodup hordered hindexes
  · exact strict_of_nodup hordered' htypes
  · show (hashes ++ s.uploadedBlocks.map Uploaded.hash).flatten = _
    rw [hhashes, hmeta, hmeta', List.map_map, List.map_map]
    rfl
  · show a.blockSizes.sum = _
    rw [h.sizes]
    exact h.size
  · rw [← h.count]
    show _ = s.uploadedBlocks.length + s.uploadedThumbnails.length
    rw [hmeta, hmeta', List.length_map, List.length_map]
  · show a.sha1 = _
    rw [h.sha1, h.complete.whole.content]
    rfl

/-- the blocks of the whole stream weigh as much as the stream -/
theorem sizes_perm {blocks : List EncryptedBlock} (hblocks : ∀ b ∈ blocks, Encrypted J l chunks b)
    (hperm : (blocks.map EncryptedBlock.index).Perm (List.range' 1 chunks.length)) :
    (blocks.map EncryptedBlock.originalSize).Perm (chunks.map List.length) := by
  have hsize : blocks.map EncryptedBlock.originalSize =
      (blocks.map EncryptedBlock.index).map fun index => (chunks.getD (index - 1) []).length := by
    rw [List.map_map]
    refine List.map_congr_left fun b hb => ?_
    obtain ⟨block, _, hchunk, _, _, hb⟩ := hblocks b hb
    show b.originalSize = (chunks.getD (b.index - 1) []).length
    rw [List.getD_eq_getElem?_getD, hchunk, hb]
    rfl
  have hchunks : (List.range' 1 chunks.length).map (fun index => (chunks.getD (index - 1) []).length) =
      chunks.map List.length := by
    refine List.ext_getElem (by simp) fun i hi hi' => ?_
    rw [List.length_map] at hi'
    simp only [List.getElem_map, List.getElem_range']
    rw [show 1 + 1 * i - 1 = i by omega, List.getD_eq_getElem?_getD, List.getElem?_eq_getElem hi']
    rfl
  rw [hsize, ← hchunks]
  exact hperm.map _

theorem ceil_of_exact {n : Nat} (hn : 0 < n) {cs : List Bytes} (h : Exact n cs) :
    (cs.flatten.length + n - 1) / n = cs.length := by
  have hlt := h.length_lt hn
  have hle : cs.flatten.length ≤ cs.length * n := by
    have htake := h.take_length hn cs.length
    rw [List.take_length] at htake
    omega
  refine (Nat.div_eq_iff hn).mpr ?_
  omega

/-- nothing is missing -/
structure Everything (J : UploadJob) (l : List UploadEvent) (c : Commit) (chunks : List Bytes)
    (blocks : List EncryptedBlock) (thumbnails : List EncryptedThumbnail) : Prop where
  length : (delivered l).length = J.metadata.expectedSize
  indexes : blocks.map EncryptedBlock.index = List.range' 1 chunks.length
  blockSizes : c.blockSizes = chunks.map List.length
  types : (thumbnails.map EncryptedThumbnail.type).Perm (J.thumbnails.map Thumbnail.type)

theorem Committed.everything {c : Commit} {blocks : List EncryptedBlock} {thumbnails : List EncryptedThumbnail}
    {all : List EncryptedBlock} (h : Committed J l c chunks blocks thumbnails)
    (hall : ∀ b ∈ all, Encrypted J l chunks b)
    (hperm : (all.map EncryptedBlock.index).Perm (List.range' 1 chunks.length))
    {pushed : List EncryptedBlock} (hsub : pushed.Sublist all) (hpushed : blocks.Perm pushed)
    (hlength : (delivered l).length ≤ J.metadata.expectedSize) :
    Everything J l c chunks blocks thumbnails := by
  have hsizes := sizes_perm hall hperm
  have hsum : (all.map EncryptedBlock.originalSize).sum = (delivered l).length := by
    rw [hsizes.sum_eq, h.whole.content, List.length_flatten]
  have hmeasured : (blocks.map EncryptedBlock.originalSize).sum = J.metadata.expectedSize := by
    rw [← h.blockSizes]
    exact h.size.2
  have hpos : ∀ b ∈ all, 0 < b.originalSize := by
    intro b hb
    obtain ⟨block, _, hchunk, _, _, hb⟩ := hall b hb
    have hblock : block ∈ chunks := List.mem_of_getElem? hchunk
    rw [hb]
    show 0 < block.length
    -- no chunk is empty
    obtain ⟨pre, post, hsplit⟩ := List.append_of_mem hblock
    have hexact := h.whole.exact
    rw [hsplit] at hexact
    clear hsplit
    induction pre with
    | nil => exact (hexact.head_length J.pos).1
    | cons c pre ih => exact ih hexact.tail
  have hsame : pushed = all := by
    refine all_of_sum_le hsub hpos ?_
    rw [hsum, ← (hpushed.map _).sum_eq, hmeasured]
    exact hlength
  subst hsame
  have hindexes := keys_of_strict h.ordered ((hpushed.map _).trans hperm)
  have htotal : (delivered l).length = J.metadata.expectedSize := by
    rw [← hsum, ← (hpushed.map _).sum_eq, hmeasured]
  have hsizesEq : blocks.map EncryptedBlock.originalSize = chunks.map List.length := by
    refine List.ext_getElem ?_ fun i hi hi' => ?_
    · rw [List.length_map, List.length_map, ← List.length_map (f := EncryptedBlock.index), hindexes,
        List.length_range']
    · rw [List.length_map] at hi hi'
      obtain ⟨block, _, hchunk, _, _, hb⟩ := (h.stored _ (List.getElem_mem hi)).1
      have hindex : blocks[i].index = i + 1 := by
        have hget := congrArg (fun l : List Nat => l[i]?) hindexes
        rw [List.getElem?_map, List.getElem?_eq_getElem hi, List.getElem?_range' hi'] at hget
        have hget := Option.some.inj hget
        omega
      rw [hindex, Nat.add_sub_cancel, List.getElem?_eq_getElem hi'] at hchunk
      rw [List.getElem_map, List.getElem_map, hb, Option.some.inj hchunk]
      rfl
  refine ⟨htotal, hindexes, h.blockSizes.trans hsizesEq, ?_⟩
  have hnodup : (thumbnails.map EncryptedThumbnail.type).Nodup :=
    List.pairwise_map.mpr (h.thumbnailsOrdered.imp fun hlt heq => by
      rw [heq] at hlt
      exact absurd hlt (Nat.lt_irrefl _))
  have hsubset : thumbnails.map EncryptedThumbnail.type ⊆ J.thumbnails.map Thumbnail.type := by
    intro type htype
    obtain ⟨t, ht, rfl⟩ := List.mem_map.mp htype
    obtain ⟨thumbnail, hmem, _, heq, _⟩ := (h.thumbnailsStored t ht).1
    rw [heq]
    exact List.mem_map_of_mem hmem
  refine (List.subperm_of_subset hnodup hsubset).perm_of_length_le ?_
  have hcount := h.count
  unfold StreamUploader.expectedBlockCount at hcount
  rw [← htotal, h.whole.content, ceil_of_exact J.pos h.whole.exact] at hcount
  have hlength' : blocks.length = chunks.length := by
    rw [← List.length_map (f := EncryptedBlock.index), hindexes, List.length_range']
  rw [List.length_map, List.length_map]
  omega

/-- the state in which a run commits -/
theorem commit_finished {c : Commit} (h : Path Step (StreamUploader.start J) (l ++ [.commitDraft c]) s) :
    ∃ (s₁ : StreamUploader J) (a : Attributes), Core l s₁ ∧ Finished l s₁ a ∧
      c = s₁.commit a (s₁.uploadedThumbnails.map Uploaded.hash) := by
  obtain ⟨s₁, hrun, hstep⟩ := h.concat_inv
  obtain ⟨a, hashes, hmain, rfl⟩ := hstep.commit_inv
  obtain ⟨hcore, hat⟩ := (run_inv hrun).resolve_left (by rw [hmain]; nofun)
  rw [hmain] at hat
  obtain ⟨hfinished, rfl⟩ := hat
  exact ⟨s₁, a, hcore, hfinished, rfl⟩

theorem commit_complete {c : Commit}
    (h : Path Step (StreamUploader.start J) (l ++ [.commitDraft c]) s) :
    ∃ chunks blocks thumbnails, Committed J l c chunks blocks thumbnails ∧
      ((delivered l).length ≤ J.metadata.expectedSize → Everything J l c chunks blocks thumbnails) := by
  obtain ⟨s₁, a, hcore, hfinished, rfl⟩ := commit_finished h
  obtain ⟨blocks, thumbnails, hcommitted, hblocks, _⟩ := hfinished.committed hcore rfl
  refine ⟨s₁.digests.updates, blocks, thumbnails, hcommitted, fun hlength => ?_⟩
  exact hcommitted.everything (fun b hb => hcore.blocks b (List.mem_append_right _ hb))
    hfinished.complete.blocks (pushedBlocks_sublist s₁.uploads) hblocks hlength

end

/-! ## a short upload -/

def shortJob : UploadJob where
  metadata := { expectedSize := 3, expectedSha1 := none, modificationTime := none, additionalMetadata := none }
  thumbnails := []
  verificationCode := [1]
  sha1 d := d
  sha256 d := d
  chunkSize := 2
  pos := by decide

def blockToken (index : Nat) : UploadToken Nat := ⟨index, "url", "token"⟩
def blockAddress (index : Nat) : UploadToken UploadKey := ⟨.block index, "url", "token"⟩

/-- the second block is stored before the first -/
def shortUpload : List UploadEvent :=
  [.read [1], .resumed, .read [2, 3], .resumed, .resumed, .encryptBlock [1, 2] (.ok ([10], "sig")),
   .decryptBlock [10] (.ok ()), .readDone, .resumed, .resumed, .encryptBlock [3] (.ok ([11], "sig")), .decryptBlock [11] (.ok ()), .resumed,
   .resumed, .requestBlockUpload
      { contentBlocks := [⟨1, "sig", [1 ^^^ 10]⟩, ⟨2, "sig", [1 ^^^ 11]⟩], thumbnails := [] }
      (.ok { blockTokens := [blockToken 1, blockToken 2], thumbnailTokens := [] }),
   .uploadBlock (blockAddress 2) [11] (.ok ()), .resumed, .resumed,
   .uploadBlock (blockAddress 1) [10] (.ok ()), .resumed, .resumed, .resumed]

theorem shortUpload_runs :
    ∃ c s, Path Step (StreamUploader.start shortJob) (shortUpload ++ [.commitDraft c]) s ∧
      c.manifest = [10, 11] ∧ c.blockSizes = [2, 1] :=
  ⟨_, _, .cons (.encryptor (.read rfl)) <| .cons (.main (.unpaused rfl (.inl rfl))) <|
    .cons (.encryptor (.read rfl)) <| .cons (.encryptor (.unpaused rfl (.inl rfl))) <|
    .cons (.encryptor (.buffered rfl (.inl (by decide)))) <| .cons (.encryptor (.encrypted rfl)) <|
    .cons (.encryptor (.verified rfl)) <| .cons (.encryptor (.readDone rfl)) <|
    .cons (.encryptor (.unpaused rfl (.inl rfl))) <|
    .cons (.encryptor (.buffered rfl (.inl (by decide)))) <| .cons (.encryptor (.encrypted rfl)) <|
    .cons (.encryptor (.verified rfl)) <| .cons (.encryptor (.caught rfl)) <|
    .cons (.main (.polled rfl (.inr (.inl rfl)))) <| .cons (.main (.initiated rfl)) <|
    .cons (.upload (show _ = [_] ++ _ :: [] from rfl) (.sent rfl)) <|
    .cons (.upload (show _ = [_] ++ _ :: [] from rfl) (.settled rfl)) <|
    .cons (.main (.encryptionAwaited rfl rfl)) <|
    .cons (.upload (show _ = [] ++ _ :: [_] from rfl) (.sent rfl)) <|
    .cons (.upload (show _ = [] ++ _ :: [_] from rfl) (.settled rfl)) <|
    .cons (.main (.uploadsAwaited rfl
      fun key hkey => ⟨_, List.mem_cons_self, (List.mem_singleton.mp hkey).symm, rfl⟩)) <|
    .cons (.main (.thumbnailsHashed rfl)) <| .one (.main (.blocksHashed rfl)), by decide, by decide⟩

theorem shortUpload_commit : ∃ c s chunks blocks thumbnails,
    Path Step (StreamUploader.start shortJob) (shortUpload ++ [.commitDraft c]) s ∧
      c.manifest = [10, 11] ∧ Committed shortJob shortUpload c chunks blocks thumbnails ∧
      Everything shortJob shortUpload c chunks blocks thumbnails :=
  have ⟨c, s, hrun, hmanifest, _⟩ := shortUpload_runs
  have ⟨chunks, blocks, thumbnails, hcommitted, heverything⟩ := commit_complete hrun
  ⟨c, s, chunks, blocks, thumbnails, hrun, hmanifest, hcommitted, heverything (by decide)⟩

end ProtonDrive.Reference
