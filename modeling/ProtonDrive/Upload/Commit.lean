import ProtonDrive.Core.Scripted
import ProtonDrive.Upload.Runs

/-!
# The commit of an upload

* `CommitEvidence`     what holds when the commit is sent: the size is the expected one, the blocks
                       asked for are numbered from 1, every ciphertext was posted once to a link of
                       the answer and accepted, and the signed payload is the list of their digests;
* `CommitProtocol`     a run sends the commit at most once, and only with that evidence; a run that
                       sent none returns `Err`;
* `runUpload_commitProtocol`
                       the first part holds of every run; the second holds of a run that ended
                       exactly if no answer it met makes the code panic.
-/

set_option linter.unusedVariables false

namespace ProtonDrive
open Encoding Effects Api

section
variable {K : Crates} {up : ProtonFileUploader} {fuel : Nat} {tr : Trace host}

/-! ## the manifest -/

/-- the digests of the ciphertexts, in the order of the blocks -/
def digests (blocks : List (EncryptedBlock K)) : Bytes :=
  blocks.flatMap fun b => (K.sha256 b.ciphertext).1

theorem decode_hash (b : EncryptedBlock K) :
    Hex.decode b.ciphertextHashHex = some (K.sha256 b.ciphertext).1 := by
  rw [b.hashed, Hex.decode_encode]

/-- the fallback of the payload for an undecodable hash is never taken -/
theorem manifestPayload_eq (blocks : List (EncryptedBlock K)) :
    manifestPayload K blocks = digests blocks := by
  unfold manifestPayload digests
  congr 1
  funext b
  rw [decode_hash]
  rfl

/-! ## the evidence -/

/-- what holds of the trace `pre` when `req` is sent as the commit -/
structure CommitEvidence (K : Crates) (up : ProtonFileUploader) (pre : Trace host)
    (req : JsonRequest) where
  draft : Draft
  blocks : List (EncryptedBlock K)
  addressId : String
  resp : JsonResponse
  links : List Upload.UploadLink
  sorted : List Upload.UploadLink
  body : Upload.CommitRevisionRequest
  signature : Bytes
  coins : Coins
  request : req = .bare .put (commitPath draft.volumeId draft.linkId draft.revisionId)
    (some body.toJson)
  size : (delivered pre).length = up.metadata.expectedSize
  nonempty : blocks ≠ []
  asked : posts blocksPath pre =
    [(some (blockUploadRequest K draft addressId blocks).toJson, .ok resp)]
  numbered : (blockUploadRequest K draft addressId blocks).blockList.map (·.index) =
    List.range' 1 blocks.length
  answered : K.Envelopes Upload.RequestBlockUploadResponse.ofJson resp.body ⟨links⟩
  count : links.length = blocks.length
  perm : sorted.Perm links
  posted : List.Forall₂ Accepted (blocks.zip sorted) (blobs pre)
  decoded : ∀ b ∈ blocks, Hex.decode b.ciphertextHashHex = some (K.sha256 b.ciphertext).1
  signer : up.account.addressPrivateKey up.account.primaryEmail = .ok draft.addressPriv
  signed : up.openpgp.sign (digests blocks) draft.addressPriv "" coins = .ok signature
  manifest : body.manifestSignature = armor signature .signature

theorem blockList_index (d : Draft) (addressId : String) (s : Chunks K) :
    (blockUploadRequest K d addressId s.blocks).blockList.map (·.index) =
      List.range' 1 s.blocks.length := by
  rw [← s.numbered]
  simp [blockUploadRequest, blockEntry, List.map_map, Function.comp_def]

theorem CommitPoint.evidence (p : CommitPoint K up fuel) :
    Nonempty (CommitEvidence K up p.trace (commitPut p.draft p.request)) := by
  obtain ⟨links⟩ := p.linksOrigin
  obtain ⟨draft⟩ := p.draftOrigin
  obtain ⟨commit⟩ := p.commitOrigin
  exact ⟨{
    draft := p.draft
    blocks := p.chunks.blocks
    addressId := links.addressId
    resp := links.resp
    links := links.links
    sorted := p.sorted
    body := p.request
    signature := commit.signature
    coins := commit.signCoins
    request := rfl
    size := by rw [← p.totalBytes, links.size]
    nonempty := links.nonempty
    asked := links.asked
    numbered := blockList_index _ _ _
    answered := links.answered
    count := links.count
    perm := (List.Perm.of_eq links.sorted_eq).trans (Sorting.sortByKey_perm _ _)
    posted := p.accepted
    decoded := fun b _ => decode_hash b
    signer := by rw [draft.addressPriv, draft.origin.address]
    signed := by rw [← manifestPayload_eq]; exact commit.signed
    manifest := commit.manifest }⟩

/-! ## the protocol -/

/-- the commit is sent at most once, and only with the evidence for it -/
def CommitDiscipline (K : Crates) (up : ProtonFileUploader) (tr : Trace host) : Prop :=
  commits tr = [] ∨ ∃ pre req ans post, tr = pre ++ ⟨.requestJson req, ans⟩ :: post ∧
    req.method = .put ∧ commits pre = [] ∧ commits post = [] ∧
    Nonempty (CommitEvidence K up pre req)

/-- the discipline, and `Err` from every run that ended without a commit -/
def CommitProtocol (K : Crates) (up : ProtonFileUploader) (tr : Trace host)
    (r : Except Fault Unit) : Prop :=
  CommitDiscipline K up tr ∧ (commits tr = [] → ∃ e, r = .error (.error e))

theorem runUpload_discipline {o : Outcome (Except Fault Unit)}
    (h : Runs (runUpload K up fuel).run tr o) : CommitDiscipline K up tr := by
  by_cases hc : commits tr = []
  · exact .inl hc
  · obtain ⟨e, he⟩ := List.exists_mem_of_ne_nil _ hc
    obtain ⟨hmem, hcommit⟩ := List.mem_filter.mp he
    obtain ⟨p, ans, post, rfl, hpost, _⟩ := runUpload_commit h hmem hcommit
    exact .inr ⟨p.trace, _, ans, post, rfl, rfl, p.commits_eq_nil, hpost, p.evidence⟩

/-- a run that returned `Ok` sent the commit -/
theorem commits_of_ok (h : Runs (runUpload K up fuel).run tr (.done (.ok ()))) :
    commits tr ≠ [] := by
  obtain ⟨p, post, rfl, hk⟩ := runUpload_ok h
  rcases commitRevision_inv hk with ⟨_, ho⟩ | ⟨ans, post', rfl, _⟩
  · cases ho
  · intro hnil
    rw [commits_append, List.append_eq_nil_iff] at hnil
    cases hnil.2

/-- a run that panicked sent none -/
theorem commits_of_panicked {f : Fault} (hf : ¬ f.IsError)
    (h : Runs (runUpload K up fuel).run tr (.done (.error f))) : commits tr = [] := by
  by_contra hc
  obtain ⟨e, he⟩ := List.exists_mem_of_ne_nil _ hc
  obtain ⟨hmem, hcommit⟩ := List.mem_filter.mp he
  obtain ⟨p, ans, post, rfl, _, hk⟩ := runUpload_commit h hmem hcommit
  have hw : Within (S := host) (fun _ => True) Fault.IsError p.commit :=
    within_commitRevision (fun _ => trivial) (fun _ _ => trivial) fun _ => trivial
  exact hf (hw.error hk)

theorem runUpload_commitProtocol :
    (∀ tr o, Runs (runUpload K up fuel).run tr o → CommitDiscipline K up tr) ∧
      ∀ tr r, Runs (runUpload K up fuel).run tr (.done r) →
        (CommitProtocol K up tr r ↔ ∀ e ∈ tr, ¬ CutsCharacter K e) := by
  refine ⟨fun tr o h => runUpload_discipline h, fun tr r h => ?_⟩
  have hpanic := panicsTold_runUpload tr r h
  constructor
  · intro ⟨_, herr⟩ e he hcut
    obtain ⟨f, rfl, hf⟩ := hpanic.mpr ⟨e, he, hcut⟩
    -- the run sent no commit, so the protocol asks for `Err`
    obtain ⟨e, he⟩ := herr (commits_of_panicked hf h)
    cases he
    exact hf trivial
  · intro hnone
    refine ⟨runUpload_discipline h, fun hc => ?_⟩
    match r, h, hpanic with
    | .ok (), h, _ => exact absurd hc (commits_of_ok h)
    | .error (.error e), _, _ => exact ⟨e, rfl⟩
    | .error (.panicked msg), _, hpanic =>
      obtain ⟨e, he, hcut⟩ := hpanic.mp ⟨_, rfl, id⟩
      exact absurd hcut (hnone e he)

end

/-! ## an answer that breaks the protocol -/

/-- 511 blanks and a character of two bytes -/
def cutBody : Bytes := List.replicate 511 32 ++ [0xC3, 0xA9]

def cutCrates : Crates := smallCrates [smallShare, smallRoot]

def cutScript : Script where
  json
    | .post, _ => cutBody
    | _, path => (smallTree path).elim [] textOf
  blob _ := { status := 200, headers := [], body := [] }
  stream := [65]

def cutRun : Trace host × Option (Except Fault Unit) :=
  cutScript.play (runUpload cutCrates smallUploader 1)

def isPanic : Option (Except Fault Unit) → Bool
  | some (.error (.panicked _)) => true
  | _ => false

theorem isPanic_spec {r : Option (Except Fault Unit)} (h : isPanic r = true) :
    ∃ msg, r = some (.error (.panicked msg)) := by
  match r, h with
  | some (.error (.panicked msg)), _ => exact ⟨msg, rfl⟩

theorem cutRun_runs : ∃ msg, cutRun.2 = some (.error (.panicked msg)) ∧
    Runs (runUpload cutCrates smallUploader 1).run cutRun.1 (.done (.error (.panicked msg))) := by
  have hpanic : isPanic cutRun.2 = true := by decide +kernel
  obtain ⟨msg, hr⟩ := isPanic_spec hpanic
  exact ⟨msg, hr, Script.play_runs (R := cutRun) rfl hr⟩

theorem cutRun_commitProtocol :
    ∃ r, CommitProtocol cutCrates smallUploader cutRun.1 r ↔
      ∀ e ∈ cutRun.1, ¬ CutsCharacter cutCrates e := by
  obtain ⟨msg, _, hrun⟩ := cutRun_runs
  exact ⟨_, runUpload_commitProtocol.2 _ _ hrun⟩

/-- the answer to the create request is `cutBody`: no commit is sent, and no `Err` returned -/
theorem cutRun_breaks_commitProtocol :
    smallUploader.metadata.validate = .ok () ∧ ∃ r, cutRun.2 = some r ∧
      Runs (runUpload cutCrates smallUploader 1).run cutRun.1 (.done r) ∧
      ¬ CommitProtocol cutCrates smallUploader cutRun.1 r := by
  obtain ⟨msg, hr, hrun⟩ := cutRun_runs
  refine ⟨rfl, _, hr, hrun, fun hprotocol => ?_⟩
  obtain ⟨e, he⟩ := hprotocol.2 (commits_of_panicked id hrun)
  cases he

end ProtonDrive
