import ProtonDrive.Core.Scripted
import ProtonDrive.Upload.Commit
import ProtonDrive.Upload.Progress

/-!
# The expected checksum of an upload

`validate` looks at the length of `expectedSha1Hex`; `runUpload` never looks at it.

* `Denotes K h content`      `h` is the hexadecimal form of the SHA-1 of `content`;
* `ChecksumEnforced`         a stream with another checksum ends in `Err` without a commit, and one
                             with the right checksum uploads as if none had been given;
* `runUpload_checksum`       this holds of a content exactly if the checksum is right or the size is
                             wrong: only the size check can stop a wrong content.
-/

set_option linter.unusedVariables false

namespace ProtonDrive
open Encoding Effects Api

def Denotes (K : Crates) (h : String) (content : Bytes) : Prop :=
  Hex.decode h = some (K.sha1 content).1

/-- the same upload without an expected checksum -/
def ProtonFileUploader.unchecked (up : ProtonFileUploader) : ProtonFileUploader :=
  { up with metadata := { up.metadata with expectedSha1Hex := none } }

section
variable {K : Crates} {up : ProtonFileUploader} {fuel : Nat} {tr : Trace host}

theorem readBlocks_unchecked (d : Draft) (s : Chunks K) :
    readBlocks K up.unchecked d fuel s = readBlocks K up d fuel s := by
  induction fuel generalizing s with
  | zero => rfl
  | succ fuel ih =>
    unfold readBlocks
    simp only [ih]
    rfl

/-- an upload does not depend on the expected checksum -/
theorem runUpload_unchecked : runUpload K up.unchecked fuel = runUpload K up fuel := by
  unfold runUpload
  simp only [readBlocks_unchecked]
  rfl

theorem UploadMetadata.size_pos {m : UploadMetadata} (h : m.validate = .ok ()) :
    0 < m.expectedSize := by
  unfold UploadMetadata.validate at h
  split at h
  · cases h
  · next hne => exact Nat.pos_of_ne_zero hne

/-! ## the property -/

/-- the property of the uploads of `content` in which no answer makes the code panic -/
def ChecksumEnforced (K : Crates) (up : ProtonFileUploader) (h : String) (content : Bytes) : Prop :=
  ∀ fuel tr o, Runs (runUpload K up fuel).run tr o → delivered tr = content →
    (∀ e ∈ tr, ¬ CutsCharacter K e) →
    (¬ Denotes K h content →
      commits tr = [] ∧ ∀ r, o = .done r → ∃ e, r = .error (.error e)) ∧
    (Denotes K h content → Runs (runUpload K up.unchecked fuel).run tr o)

/-- a commit is only sent for a content of the expected size -/
theorem delivered_of_commits {o : Outcome (Except Fault Unit)}
    (h : Runs (runUpload K up fuel).run tr o) (hc : commits tr ≠ []) :
    (delivered tr).length = up.metadata.expectedSize := by
  obtain ⟨e, he⟩ := List.exists_mem_of_ne_nil _ hc
  obtain ⟨hmem, hcommit⟩ := List.mem_filter.mp he
  obtain ⟨p, ans, post, rfl, hpost, hrest⟩ := runUpload_commit h hmem hcommit
  obtain ⟨links⟩ := p.linksOrigin
  have hread : delivered (⟨.requestJson (commitPut p.draft p.request), ans⟩ :: post) = [] :=
    delivered_eq_nil (hrest.only
      (only_commitRevision (A := fun c => isRead c = false) (fun _ _ => rfl) fun _ => rfl))
  rw [delivered_append, hread, List.append_nil, ← p.totalBytes, links.size]

theorem runUpload_checksum {h : String} (hvalid : up.metadata.validate = .ok ())
    (hsha : up.metadata.expectedSha1Hex = some h) (w : Working K up) (content : Bytes) :
    ChecksumEnforced K up h content ↔
      (Denotes K h content ∨ content.length ≠ up.metadata.expectedSize) := by
  constructor
  · intro henforced
    by_contra hcond
    obtain ⟨hwrong, hsize⟩ := not_or.mp hcond
    have hsize : content.length = up.metadata.expectedSize := not_not.mp hsize
    have hpos : 0 < content.length := hsize ▸ UploadMetadata.size_pos hvalid
    -- the content has the right size and the wrong checksum, and the upload can return `Ok`
    obtain ⟨fuel, tr, _, hrun, hdel, rfl⟩ := runUpload_canReturn w hpos hsize
    have hquiet : ∀ e ∈ tr, ¬ CutsCharacter K e := by
      intro e he hcut
      obtain ⟨f, hf, _⟩ := (panicsTold_runUpload tr _ hrun).mpr ⟨e, he, hcut⟩
      cases hf
    obtain ⟨_, herr⟩ := (henforced fuel tr _ hrun hdel hquiet).1 hwrong
    obtain ⟨e, he⟩ := herr _ rfl
    cases he
  · intro hcond fuel tr o hrun hdel hquiet
    refine ⟨fun hwrong => ?_, fun _ => by rwa [runUpload_unchecked]⟩
    have hsize : content.length ≠ up.metadata.expectedSize := hcond.resolve_left hwrong
    have hnone : commits tr = [] := by
      by_contra hc
      exact hsize (hdel ▸ delivered_of_commits hrun hc)
    refine ⟨hnone, ?_⟩
    rintro r rfl
    match r with
    | .ok () => exact absurd hnone (commits_of_ok hrun)
    | .error (.error e) => exact ⟨e, rfl⟩
    | .error (.panicked msg) =>
      obtain ⟨e, he, hcut⟩ := (panicsTold_runUpload tr _ hrun).mp ⟨_, rfl, id⟩
      exact absurd hcut (hquiet e he)

end

/-! ## a wrong checksum -/

def goodLink : Upload.UploadLink := { index := 1, bareUrl := "storage", token := "t" }

def goodCrates : Crates := smallCrates (smallDocs [goodLink])

/-- forty zeros -/
def wrongSha1 : String := "0000000000000000000000000000000000000000"

def wrongUploader : ProtonFileUploader :=
  { smallUploader with
    metadata := { smallUploader.metadata with expectedSha1Hex := some wrongSha1 } }

theorem goodDocs_nodup : ((smallDocs [goodLink]).map textOf).Nodup := by decide +kernel

theorem transparent_succeeds : Succeeds transparentCrypto where
  generateKey _ := ⟨(0 : Nat), _, rfl⟩
  generateSessionKey := ⟨(0 : Nat), _, rfl⟩
  publicKey _ := ⟨_, rfl⟩
  encryptAndSign _ _ _ _ := ⟨(0 : Nat), _, rfl⟩
  encrypt _ _ _ := ⟨(0 : Nat), _, rfl⟩
  encryptSessionKey _ _ := ⟨(0 : Nat), _, rfl⟩
  sign _ _ := ⟨(0 : Nat), _, rfl⟩

theorem unlock_sealedFor {K : Crates} {texts : UnlockTexts} {keyArmored : String}
    {k : PrivateKey} :
    unlockKey K transparentCrypto texts keyArmored (sealedFor k.fingerprintHex (asBytes "p"))
      k =
      .ok { armored := keyArmored, fingerprintHex := keyArmored, passphrase := "p" } := by
  obtain ⟨message, hsealed, hseal⟩ := sealedFor_eq k.fingerprintHex (asBytes "p")
  rw [hsealed]
  exact unlockKey_sealed transparent_ideal hseal (List.mem_singleton.mpr rfl) rfl rfl

theorem wrongUploader_working : Working goodCrates wrongUploader where
  crypto := transparent_succeeds
  hmac _ _ := ⟨_, rfl⟩
  keys := by
    obtain ⟨message, hsealed, hseal⟩ := sealedFor_eq "dir" [1, 2, 3]
    obtain ⟨status, hdecrypt⟩ := transparent_ideal.decrypt hseal
    have hopen : transparentCrypto.decryptSessionKey (asBytes (sealedFor "dir" [1, 2, 3]))
        [{ armored := "dir", fingerprintHex := "dir", passphrase := "p" }] =
        .ok { data := [7], cipherAlgorithm := 9, aead := .none } := by
      rw [hsealed, transparent_ideal.armored_sessionKey _ hseal]
      exact transparent_ideal.unwrap_message hseal (List.mem_singleton.mpr rfl) rfl
    have hplain : transparentCrypto.decryptAndVerify (asBytes (sealedFor "dir" [1, 2, 3]))
        { data := [7], cipherAlgorithm := 9, aead := .none } [] = .ok ([1, 2, 3], status) := by
      rw [hsealed, transparent_ideal.armored_message _ _ hseal, hdecrypt]
    exact ⟨_, _, _, _, _, _, _, _, _, _, rfl,
      smallCrates_envelopes goodDocs_nodup (j := smallShare) (by simp [smallDocs]) rfl,
      unlock_sealedFor (k := ⟨"addr", "addr", ""⟩),
      smallCrates_envelopes goodDocs_nodup (j := smallRoot) (by simp [smallDocs]) rfl,
      unlock_sealedFor (k := ⟨"shr", "shr", "p"⟩), rfl, hopen, hplain⟩
  addressId := ⟨_, rfl⟩
  created := ⟨_, _, smallCrates_envelopes goodDocs_nodup (j := smallFile) (by simp [smallDocs]) rfl⟩
  verification :=
    ⟨_, _, [], smallCrates_envelopes goodDocs_nodup (j := smallVerification) (by simp [smallDocs]) rfl, rfl⟩
  links := ⟨_, [goodLink],
    smallCrates_envelopes goodDocs_nodup (j := smallLinks [goodLink]) (by simp [smallDocs]) rfl, by decide⟩
  committed := ⟨_, _, smallCrates_envelopes goodDocs_nodup (j := smallDone) (by simp [smallDocs]) rfl⟩

theorem wrongUploader_checksum :
    ChecksumEnforced goodCrates wrongUploader wrongSha1 [65] ↔
      (Denotes goodCrates wrongSha1 [65] ∨ [(65 : UInt8)].length ≠ 1) :=
  runUpload_checksum rfl rfl wrongUploader_working [65]

def wrongRun : Trace host × Option (Except Fault Unit) :=
  (smallUpload [goodLink]).play (runUpload goodCrates wrongUploader 1)

def isOk : Option (Except Fault Unit) → Bool
  | some (.ok ()) => true
  | _ => false

theorem isOk_spec {r : Option (Except Fault Unit)} (h : isOk r = true) : r = some (.ok ()) := by
  match r, h with
  | some (.ok ()), _ => rfl

/-- the checksum of "A" is not forty zeros, and the upload of "A" returns `Ok` -/
theorem wrongRun_breaks_checksum :
    wrongUploader.metadata.validate = .ok () ∧
      wrongUploader.metadata.expectedSha1Hex = some wrongSha1 ∧
      delivered wrongRun.1 = [65] ∧ ¬ Denotes goodCrates wrongSha1 [65] ∧
      Runs (runUpload goodCrates wrongUploader 1).run wrongRun.1 (.done (.ok ())) ∧
      commits wrongRun.1 ≠ [] := by
  have hends : (isOk wrongRun.2 && delivered wrongRun.1 = [65]) = true := by decide +kernel
  obtain ⟨hok, hdel⟩ := Bool.and_eq_true_iff.mp hends
  have hrun := Script.play_runs (R := wrongRun) rfl (isOk_spec hok)
  have hwrong : ¬ Denotes goodCrates wrongSha1 [65] := by
    unfold Denotes
    decide +kernel
  exact ⟨rfl, rfl, of_decide_eq_true hdel, hwrong, hrun, commits_of_ok hrun⟩

end ProtonDrive
