import ProtonDrive.Lib.Paths
import ProtonDrive.Reference.StreamUploader

/-!
# The uploads of the reference client

What the stream uploader has started to upload, against the fields of the class.

* `delivered`              the bytes that the stream has delivered;
* `mapDelete_perm`         what is deleted from a map, and what is left;
* `uploadBlocks`, `pushedUploads`, `liveUploads`
                           the blocks of the uploads, the uploads that are recorded as uploaded, and those that
                           are in the map of ongoing uploads;
* `Accounts`               the fields agree with the uploads, and what is recorded was stored;
* `Accounts.replace`, `Accounts.push`, `Accounts.settle`, `Accounts.add`
                           what a step of an upload does to it.
-/

set_option linter.unusedVariables false

namespace ProtonDrive.Reference
open Encoding Paths Chunking Sorting

/-! ## what the stream has delivered -/

def UploadEvent.value : UploadEvent → Bytes
  | .read value => value
  | _ => []

def delivered (l : List UploadEvent) : Bytes := l.flatMap UploadEvent.value

theorem delivered_concat (l : List UploadEvent) (e : UploadEvent) :
    delivered (l ++ [e]) = delivered l ++ e.value := by
  unfold delivered
  rw [List.flatMap_append, List.flatMap_singleton]

/-! ## maps -/

section
variable {α κ : Type} [DecidableEq κ] {key : α → κ} {l : List α} {a b : α} {k k' : κ}

theorem mapSet_fresh (h : key a ∉ l.map key) : mapSet key l a = l ++ [a] := if_neg h

theorem mapGet_some (h : mapGet key l k = some a) : a ∈ l ∧ key a = k := by
  refine ⟨List.mem_of_find?_eq_some h, ?_⟩
  have hkey := List.find?_some h
  exact of_decide_eq_true hkey

theorem mapDelete_of_notMem (h : k ∉ l.map key) : mapDelete key l k = l := by
  refine List.filter_eq_self.mpr fun b hb => decide_eq_true fun hkey => ?_
  exact h (hkey ▸ List.mem_map_of_mem hb)

/-- what is deleted, and what is left -/
theorem mapDelete_perm (hnodup : (l.map key).Nodup) (ha : a ∈ l) :
    (a :: mapDelete key l (key a)).Perm l := by
  induction l with
  | nil => cases ha
  | cons b l ih =>
    rw [List.map_cons, List.nodup_cons] at hnodup
    unfold mapDelete
    by_cases hb : key b = key a
    · have hab : a = b := by
        rcases List.mem_cons.mp ha with rfl | ha
        · rfl
        · exact absurd (hb ▸ List.mem_map_of_mem ha) hnodup.1
      subst hab
      rw [List.filter_cons_of_neg (by simp)]
      have hrest : mapDelete key l (key a) = l := mapDelete_of_notMem hnodup.1
      unfold mapDelete at hrest
      rw [hrest]
    · have ha : a ∈ l := (List.mem_cons.mp ha).resolve_left fun hab => hb (hab ▸ rfl)
      rw [List.filter_cons_of_pos (by simpa using hb)]
      exact (List.Perm.swap b a _).trans ((ih hnodup.2 ha).cons b)

theorem mem_mapSet (h : b ∈ mapSet key l a) : b = a ∨ b ∈ l := by
  unfold mapSet at h
  split at h
  · obtain ⟨c, hc, rfl⟩ := List.mem_map.mp h
    split
    · exact .inl rfl
    · exact .inr hc
  · rcases List.mem_append.mp h with h | h
    · exact .inr h
    · exact .inl (List.mem_singleton.mp h)

theorem mapSet_keys (h : key a ∈ l.map key) : (mapSet key l a).map key = l.map key := by
  unfold mapSet
  rw [if_pos h, List.map_map]
  refine List.map_congr_left fun c _ => ?_
  show key (if key c = key a then a else c) = key c
  split
  · next hc => exact hc.symm
  · rfl

theorem mem_mapSet_keys : k ∈ (mapSet key l a).map key ↔ k ∈ l.map key ∨ k = key a := by
  by_cases h : key a ∈ l.map key
  · rw [mapSet_keys h]
    constructor
    · exact .inl
    · rintro (hk | rfl)
      · exact hk
      · exact h
  · rw [mapSet_fresh h, List.map_append, List.mem_append, List.map_singleton, List.mem_singleton]

theorem mapSet_nodup (h : (l.map key).Nodup) : ((mapSet key l a).map key).Nodup := by
  by_cases hmem : key a ∈ l.map key
  · rw [mapSet_keys hmem]
    exact h
  · rw [mapSet_fresh hmem, List.map_append, List.map_singleton]
    refine List.Nodup.append h (List.nodup_singleton _) ?_
    exact List.disjoint_singleton.mpr hmem

theorem mem_mapDelete_keys : k ∈ (mapDelete key l k').map key ↔ k ∈ l.map key ∧ k ≠ k' := by
  unfold mapDelete
  constructor
  · intro h
    obtain ⟨c, hc, rfl⟩ := List.mem_map.mp h
    obtain ⟨hmem, hne⟩ := List.mem_filter.mp hc
    exact ⟨List.mem_map_of_mem hmem, of_decide_eq_true hne⟩
  · rintro ⟨h, hne⟩
    obtain ⟨c, hc, rfl⟩ := List.mem_map.mp h
    exact List.mem_map_of_mem (List.mem_filter.mpr ⟨hc, decide_eq_true hne⟩)

theorem mapDelete_nodup (h : (l.map key).Nodup) : ((mapDelete key l k).map key).Nodup :=
  h.sublist (List.filter_sublist.map key)

end

/-! ## the uploads -/

def Part.block? : Part → Option EncryptedBlock
  | .thumbnail _ => none
  | .block b => some b

def Part.thumbnail? : Part → Option EncryptedThumbnail
  | .thumbnail t => some t
  | .block _ => none

/-- it has been recorded as uploaded -/
def Phase.pushed : Phase → Bool
  | .settling r => r.isOk
  | .settled r => r.isOk
  | _ => false

/-- it is in the map of ongoing uploads -/
def Phase.live : Phase → Bool
  | .settled _ => false
  | _ => true

def uploadBlocks (uploads : List Upload) : List EncryptedBlock := uploads.filterMap fun u => u.part.block?

def uploadThumbnails (uploads : List Upload) : List EncryptedThumbnail :=
  uploads.filterMap fun u => u.part.thumbnail?

def pushedUploads (uploads : List Upload) : List Upload := uploads.filter fun u => u.phase.pushed

def liveUploads (uploads : List Upload) : List Upload := uploads.filter fun u => u.phase.live

section
variable {uploads uploads' pre post : List Upload} {u u' : Upload}

@[simp] theorem uploadBlocks_append :
    uploadBlocks (uploads ++ uploads') = uploadBlocks uploads ++ uploadBlocks uploads' :=
  List.filterMap_append

@[simp] theorem uploadBlocks_cons :
    uploadBlocks (u :: uploads) = u.part.block?.toList ++ uploadBlocks uploads := by
  unfold uploadBlocks
  rw [List.filterMap_cons]
  cases u.part.block? <;> rfl

@[simp] theorem uploadThumbnails_append :
    uploadThumbnails (uploads ++ uploads') = uploadThumbnails uploads ++ uploadThumbnails uploads' :=
  List.filterMap_append

@[simp] theorem uploadThumbnails_cons :
    uploadThumbnails (u :: uploads) = u.part.thumbnail?.toList ++ uploadThumbnails uploads := by
  unfold uploadThumbnails
  rw [List.filterMap_cons]
  cases u.part.thumbnail? <;> rfl

@[simp] theorem pushedUploads_append :
    pushedUploads (uploads ++ uploads') = pushedUploads uploads ++ pushedUploads uploads' :=
  List.filter_append ..

@[simp] theorem pushedUploads_cons : pushedUploads (u :: uploads) =
    if u.phase.pushed = true then u :: pushedUploads uploads else pushedUploads uploads :=
  List.filter_cons

@[simp] theorem liveUploads_append :
    liveUploads (uploads ++ uploads') = liveUploads uploads ++ liveUploads uploads' :=
  List.filter_append ..

@[simp] theorem liveUploads_cons : liveUploads (u :: uploads) =
    if u.phase.live = true then u :: liveUploads uploads else liveUploads uploads :=
  List.filter_cons

theorem uploadBlocks_replace (hpart : u'.part = u.part) :
    uploadBlocks (pre ++ u' :: post) = uploadBlocks (pre ++ u :: post) := by
  simp only [uploadBlocks_append, uploadBlocks_cons, hpart]

theorem uploadThumbnails_replace (hpart : u'.part = u.part) :
    uploadThumbnails (pre ++ u' :: post) = uploadThumbnails (pre ++ u :: post) := by
  simp only [uploadThumbnails_append, uploadThumbnails_cons, hpart]

theorem keys_replace (hpart : u'.part = u.part) :
    (pre ++ u' :: post).map Upload.key = (pre ++ u :: post).map Upload.key := by
  simp only [List.map_append, List.map_cons, Upload.key, hpart]

theorem mem_keys_block {index : Nat} :
    .block index ∈ uploads.map Upload.key ↔ index ∈ (uploadBlocks uploads).map EncryptedBlock.index := by
  induction uploads with
  | nil => simp [uploadBlocks]
  | cons u uploads ih =>
    obtain ⟨part, phase, reported⟩ := u
    rw [uploadBlocks_cons, List.map_append, List.mem_append, List.map_cons, List.mem_cons, ih]
    cases part <;> simp [Upload.key, Part.key, Part.block?]

theorem mem_keys_thumbnail {type : ThumbnailType} :
    .thumbnail type ∈ uploads.map Upload.key ↔
      type ∈ (uploadThumbnails uploads).map EncryptedThumbnail.type := by
  induction uploads with
  | nil => simp [uploadThumbnails]
  | cons u uploads ih =>
    obtain ⟨part, phase, reported⟩ := u
    rw [uploadThumbnails_cons, List.map_append, List.mem_append, List.map_cons, List.mem_cons, ih]
    cases part <;> simp [Upload.key, Part.key, Part.thumbnail?]

end

/-- the uploads, against the fields of the class -/
structure Accounts (l : List UploadEvent) (uploads : List Upload) (ongoingUploads : List UploadKey)
    (uploadedBlocks : List (Uploaded Nat)) (uploadedThumbnails : List (Uploaded ThumbnailType))
    (fileProgress : Int) : Prop where
  keys : (uploads.map Upload.key).Nodup
  ongoing : ongoingUploads = (liveUploads uploads).map Upload.key
  blocks : uploadedBlocks.Perm ((uploadBlocks (pushedUploads uploads)).map EncryptedBlock.metadata)
  thumbnails : uploadedThumbnails.Perm
    ((uploadThumbnails (pushedUploads uploads)).map EncryptedThumbnail.metadata)
  stored : ∀ u ∈ uploads, u.phase.pushed = true → ∃ address, .uploadBlock address u.part.data (.ok ()) ∈ l
  progress : fileProgress = (uploads.map fun u => (u.reported : Int)).sum

section
variable {l : List UploadEvent} {uploads pre post : List Upload} {ongoing : List UploadKey}
  {ub : List (Uploaded Nat)} {ut : List (Uploaded ThumbnailType)} {p : Int} {u u' : Upload}

theorem Accounts.grow (h : Accounts l uploads ongoing ub ut p) (e : UploadEvent) :
    Accounts (l ++ [e]) uploads ongoing ub ut p where
  keys := h.keys
  ongoing := h.ongoing
  blocks := h.blocks
  thumbnails := h.thumbnails
  stored u hu hp := by
    obtain ⟨address, hmem⟩ := h.stored u hu hp
    exact ⟨address, List.mem_append_left _ hmem⟩
  progress := h.progress

/-- a step of an upload that neither records it nor takes it out of the map -/
theorem Accounts.replace (h : Accounts l (pre ++ u :: post) ongoing ub ut p) (hpart : u'.part = u.part)
    (hpushed : u'.phase.pushed = u.phase.pushed) (hlive : u'.phase.live = u.phase.live) :
    Accounts l (pre ++ u' :: post) ongoing ub ut (p - u.reported + u'.reported) where
  keys := by
    rw [keys_replace hpart]
    exact h.keys
  ongoing := by
    rw [h.ongoing]
    simp only [liveUploads_append, liveUploads_cons, hlive, List.map_append]
    cases u.phase.live <;> simp [Upload.key, hpart]
  blocks := by
    refine h.blocks.trans (.of_eq ?_)
    simp only [pushedUploads_append, pushedUploads_cons, hpushed]
    cases u.phase.pushed <;> simp [hpart]
  thumbnails := by
    refine h.thumbnails.trans (.of_eq ?_)
    simp only [pushedUploads_append, pushedUploads_cons, hpushed]
    cases u.phase.pushed <;> simp [hpart]
  stored v hv hp := by
    rcases List.mem_append.mp hv with hv | hv
    · exact h.stored v (List.mem_append_left _ hv) hp
    · rcases List.mem_cons.mp hv with rfl | hv
      · rw [hpart]
        exact h.stored u (List.mem_append_right _ List.mem_cons_self) (hpushed ▸ hp)
      · exact h.stored v (List.mem_append_right _ (List.mem_cons_of_mem _ hv)) hp
  progress := by
    rw [h.progress]
    simp only [List.map_append, List.map_cons, List.sum_append, List.sum_cons]
    omega

/-- the upload is over, and was recorded -/
theorem Accounts.push (h : Accounts l (pre ++ u :: post) ongoing ub ut p) (u' : Upload) (hpart : u'.part = u.part)
    (hreported : u'.reported = u.reported) (hpushed : u.phase.pushed = false)
    (hpushed' : u'.phase.pushed = true) (hlive : u'.phase.live = u.phase.live)
    (hstored : ∃ address, .uploadBlock address u.part.data (.ok ()) ∈ l) :
    Accounts l (pre ++ u' :: post) ongoing (ub ++ (u.part.block?.map EncryptedBlock.metadata).toList)
      (ut ++ (u.part.thumbnail?.map EncryptedThumbnail.metadata).toList) p where
  keys := by
    rw [keys_replace hpart]
    exact h.keys
  ongoing := by
    rw [h.ongoing]
    simp only [liveUploads_append, liveUploads_cons, hlive, List.map_append]
    cases u.phase.live <;> simp [Upload.key, hpart]
  blocks := by
    refine (h.blocks.append_right _).trans ?_
    simp only [pushedUploads_append, pushedUploads_cons, hpushed, hpushed', if_true, Bool.false_eq_true,
      if_false, uploadBlocks_append, uploadBlocks_cons, hpart, List.map_append, List.append_assoc,
      Option.toList_map]
    exact List.perm_append_comm.append_left _
  thumbnails := by
    refine (h.thumbnails.append_right _).trans ?_
    simp only [pushedUploads_append, pushedUploads_cons, hpushed, hpushed', if_true, Bool.false_eq_true,
      if_false, uploadThumbnails_append, uploadThumbnails_cons, hpart, List.map_append, List.append_assoc,
      Option.toList_map]
    exact List.perm_append_comm.append_left _
  stored v hv hp := by
    rcases List.mem_append.mp hv with hv | hv
    · exact h.stored v (List.mem_append_left _ hv) hp
    · rcases List.mem_cons.mp hv with rfl | hv
      · rw [hpart]
        exact hstored
      · exact h.stored v (List.mem_append_right _ (List.mem_cons_of_mem _ hv)) hp
  progress := by
    rw [h.progress]
    simp only [List.map_append, List.map_cons, List.sum_append, List.sum_cons, hreported]

/-- the upload is taken out of the map -/
theorem Accounts.settle (h : Accounts l (pre ++ u :: post) ongoing ub ut p) (u' : Upload) (hpart : u'.part = u.part)
    (hreported : u'.reported = u.reported) (hpushed : u'.phase.pushed = u.phase.pushed)
    (hlive : u.phase.live = true) (hlive' : u'.phase.live = false) :
    Accounts l (pre ++ u' :: post) (mapDelete id ongoing u.key) ub ut p where
  keys := by
    rw [keys_replace hpart]
    exact h.keys
  ongoing := by
    have hkeys := h.keys
    rw [h.ongoing]
    simp only [liveUploads_append, liveUploads_cons, hlive, hlive', List.map_append, if_true,
      Bool.false_eq_true, if_false, List.map_cons]
    simp only [List.map_append, List.map_cons, List.nodup_append, List.nodup_cons, List.mem_cons,
      List.mem_map] at hkeys
    obtain ⟨_, ⟨hafter, _⟩, hbefore⟩ := hkeys
    have hpre : mapDelete id ((liveUploads pre).map Upload.key) u.key =
        (liveUploads pre).map Upload.key := by
      refine mapDelete_of_notMem fun hmem => ?_
      rw [List.map_id] at hmem
      obtain ⟨v, hv, hkey⟩ := List.mem_map.mp hmem
      exact hbefore v.key ⟨v, (List.mem_filter.mp hv).1, rfl⟩ u.key (.inl rfl) hkey
    have hpost : mapDelete id ((liveUploads post).map Upload.key) u.key =
        (liveUploads post).map Upload.key := by
      refine mapDelete_of_notMem fun hmem => ?_
      rw [List.map_id] at hmem
      obtain ⟨v, hv, hkey⟩ := List.mem_map.mp hmem
      exact hafter ⟨v, (List.mem_filter.mp hv).1, hkey⟩
    unfold mapDelete at hpre hpost ⊢
    rw [List.filter_append, List.filter_cons_of_neg (by simp), hpre, hpost]
  blocks := by
    refine h.blocks.trans (.of_eq ?_)
    simp only [pushedUploads_append, pushedUploads_cons, hpushed]
    cases u.phase.pushed <;> simp [hpart]
  thumbnails := by
    refine h.thumbnails.trans (.of_eq ?_)
    simp only [pushedUploads_append, pushedUploads_cons, hpushed]
    cases u.phase.pushed <;> simp [hpart]
  stored v hv hp := by
    rcases List.mem_append.mp hv with hv | hv
    · exact h.stored v (List.mem_append_left _ hv) hp
    · rcases List.mem_cons.mp hv with rfl | hv
      · rw [hpart]
        exact h.stored u (List.mem_append_right _ List.mem_cons_self) (hpushed ▸ hp)
      · exact h.stored v (List.mem_append_right _ (List.mem_cons_of_mem _ hv)) hp
  progress := by
    rw [h.progress]
    simp only [List.map_append, List.map_cons, List.sum_append, List.sum_cons, hreported]

/-- an upload is started -/
theorem Accounts.add (h : Accounts l uploads ongoing ub ut p) (hfresh : u.key ∉ uploads.map Upload.key)
    (hpushed : u.phase.pushed = false) (hlive : u.phase.live = true) (hreported : u.reported = 0) :
    Accounts l (uploads ++ [u]) (mapSet id ongoing u.key) ub ut p where
  keys := by
    rw [List.map_append, List.map_singleton]
    exact List.nodup_append.mpr ⟨h.keys, List.nodup_singleton _, fun k hk k' hk' => by
      rw [List.mem_singleton.mp hk']
      rintro rfl
      exact hfresh hk⟩
  ongoing := by
    have hnew : u.key ∉ ongoing := by
      rw [h.ongoing]
      intro hmem
      obtain ⟨v, hv, hkey⟩ := List.mem_map.mp hmem
      exact hfresh (hkey ▸ List.mem_map_of_mem (List.mem_filter.mp hv).1)
    rw [mapSet_fresh (by rw [List.map_id]; exact hnew), h.ongoing]
    simp [hlive, liveUploads]
  blocks := by
    refine h.blocks.trans (.of_eq ?_)
    simp [hpushed, pushedUploads]
  thumbnails := by
    refine h.thumbnails.trans (.of_eq ?_)
    simp [hpushed, pushedUploads]
  stored v hv hp := by
    rcases List.mem_append.mp hv with hv | hv
    · exact h.stored v hv hp
    · rw [List.mem_singleton.mp hv, hpushed] at hp
      cases hp
  progress := by
    rw [h.progress]
    simp [hreported]

end

end ProtonDrive.Reference
