import ProtonDrive.App.Transfer
import ProtonDrive.Core.Scripted
import ProtonDrive.Download.Authentic

/-!
# Completed downloads

What a download transfer that is `Completed` has put into its file, for every revision the server
answers with: the plaintexts of the blocks of that answer, in the order of their indices, each from a
ciphertext with the hash of its block.  Whether these are the blocks that were signed is what
`signature_verified` says (`DeliveredFile.verified_iff`), and the extended attributes change neither
the file nor whether there is one (`downloadToWriter_xattr`).  `completed_download` puts this together.

* `SignedRevision`       a revision signed over its blocks, and the answers that carry its signature and its
                         key (`AnsweredBy`);
* `CompletedIsWhole`     every download of an answer that returns `Ok` is one of the signed list, with
                         attributes that fit, and leaves the whole plaintext;
* `Deliverable`          what an answer needs to come through the checks of the code;
* `completed_whole_iff`  the code makes no difference between a list that is the signed one and one that is
                         not: the first holds just if nothing else can be delivered;
* `shortRun_breaks_completion`
                         a revision that was signed over two blocks, and is served with one of them, is
                         `Completed` with the plaintext of one.
-/

set_option linter.unusedVariables false

namespace ProtonDrive
open Encoding Effects Api

/-! ## the file -/

section
variable {K : Crates} {client : ProtonDriveClient} {task : DownloadTask} {dl : FileDownloader}
  {stats : DownloadStats} {tr : Trace host}

theorem within_downloadToWriter {A : HostCall → Prop} {Q : Fault → Prop} (hQ : ∀ e, Q (.error e))
    (hget : ∀ path, A (.requestJson (.bare .get path none)))
    (hblob : ∀ block, A (.requestBlob (blockGet block))) (hwrite : ∀ data, A (.writeAll data))
    (hflush : A .flush) : Within (S := host) A Q (downloadToWriter K dl) := by
  refine Within.bind (within_fetchRevision hQ hget) fun revision => ?_
  refine Within.bind (within_require hQ _ _) fun _ => ?_
  refine Within.bind (within_require hQ _ _) fun _ => ?_
  refine Within.bind (within_ofExcept hQ _ _) fun sessionKey => ?_
  refine Within.bind ?_ fun t => ?_
  · generalize Tally.empty = t
    induction Sorting.sortByKey (fun b : Download.BlockResponse => b.index) revision.blocks
      generalizing t with
    | nil => exact Within.pure _
    | cons block rest ih =>
      refine Within.bind (within_fetchAndDecryptBlock hQ (hblob block)) fun plaintext => ?_
      refine Within.bind (within_call (hwrite plaintext)) fun r => ?_
      refine Within.bind (within_ofExcept hQ _ _) fun _ => ?_
      exact ih (t.add plaintext)
  · refine Within.bind (within_call hflush) fun flushed => ?_
    refine Within.bind (within_ofExcept hQ _ _) fun _ => ?_
    refine Within.bind (within_ofExcept hQ _ _) fun _ => ?_
    exact Within.pure _

/-- the trace of the task with other calls in the place of those of `download_to_writer` -/
def FinishedDownload.traceOf (d : FinishedDownload K client task tr) (body : Trace host) :
    Trace host :=
  ⟨.isCancelled .transfer, false⟩ :: (d.setup ++
    (⟨.createFile task.destPath, .ok ()⟩ :: ⟨.sendProgress 0, ()⟩ ::
      ⟨.isCancelled .transfer, false⟩ :: (body ++ [⟨.sendProgress d.stats.bytes, ()⟩])))

/-- the file is made of what `download_to_writer` has written -/
theorem FinishedDownload.destination_traceOf (d : FinishedDownload K client task tr)
    {body : Trace host} {stats : DownloadStats}
    (h : Runs (downloadToWriter K d.dl).run body (.done (.ok stats))) :
    destination (d.traceOf body) = some (task.destPath, written body) := by
  have hwithin : Within (S := host) (fun c => isCreate c = false) (fun _ => True)
      (downloadToWriter K d.dl) :=
    within_downloadToWriter (fun _ => trivial) (fun _ => rfl) (fun _ => rfl) (fun _ => rfl) rfl
  have hbody : ∀ e ∈ ⟨.sendProgress 0, ()⟩ :: ⟨.isCancelled .transfer, false⟩ ::
      (body ++ [⟨.sendProgress d.stats.bytes, ()⟩]), isCreate e.call = false := by
    intro e he
    rcases List.mem_cons.mp he with rfl | he
    · rfl
    · rcases List.mem_cons.mp he with rfl | he
      · rfl
      · rcases List.mem_append.mp he with he | he
        · exact h.only hwithin.1 e he
        · rw [List.mem_singleton.mp he]
          rfl
  unfold destination traceOf
  rw [List.foldl_cons, List.foldl_append, List.foldl_cons]
  have hcreated : ∀ file, fileAfter file ⟨.createFile task.destPath, .ok ()⟩ =
      some (task.destPath, []) := fun _ => rfl
  rw [hcreated, foldl_fileAfter hbody, List.nil_append]
  show some (task.destPath, written (body ++ [_])) = _
  rw [written_append]
  exact congrArg (fun bs => some (task.destPath, bs)) (List.append_nil _)

theorem FinishedDownload.traceOf_body (d : FinishedDownload K client task tr) :
    d.traceOf d.body = tr := d.shape.symm

theorem fileDownloader_crypto {uid : NodeUid}
    (h : Runs (fileDownloader K client uid).run tr (.done (.ok dl))) :
    dl.crypto = client.openpgp := by
  obtain ⟨link, t₁, u₁, rfl, h₁, k₁⟩ := h.bindE_ok
  obtain ⟨_, t₂, u₂, rfl, h₂, k₂⟩ := k₁.bindE_ok
  obtain ⟨fileProps, t₃, u₃, rfl, h₃, k₃⟩ := k₂.bindE_ok
  obtain ⟨revision, t₄, u₄, rfl, h₄, k₄⟩ := k₃.bindE_ok
  obtain ⟨volumeId, t₅, u₅, rfl, h₅, k₅⟩ := k₄.bindE_ok
  obtain ⟨sharePriv, t₆, u₆, rfl, h₆, k₆⟩ := k₅.bindE_ok
  obtain ⟨nodePriv, t₇, u₇, rfl, h₇, k₇⟩ := k₆.bindE_ok
  obtain ⟨rfl, rfl⟩ := pure_ok k₇
  rfl

/-! ## the extended attributes -/

/-- with other extended attributes in the answer, the same calls end in `Ok` again -/
theorem downloadToWriter_xattr {resp resp' : JsonResponse} {rest : Trace host}
    {revision : Download.RevisionWithBlocks} {xattr : Option String}
    (hanswer : K.Envelopes Download.GetRevisionResponse.ofJson resp.body ⟨revision⟩)
    (hanswer' : K.Envelopes Download.GetRevisionResponse.ofJson resp'.body
      ⟨{ revision with xAttr := xattr }⟩)
    (h : Runs (downloadToWriter K dl).run
      (⟨.requestJson (.bare .get dl.revisionPath none), .ok resp⟩ :: rest) (.done (.ok stats))) :
    ∃ mtime, Runs (downloadToWriter K dl).run
      (⟨.requestJson (.bare .get dl.revisionPath none), .ok resp'⟩ :: rest)
      (.done (.ok { stats with lastModificationTime := mtime })) := by
  obtain ⟨got, sk, t, verified, fetching, writing, htrace, hfetch, hne, hsig, hkey, hwrite, hverified,
    rfl⟩ := downloadToWriter_parts h
  obtain ⟨⟨r⟩, t₁, u₁, rfl, hget, hk⟩ := hfetch.bindE_ok
  obtain ⟨rfl, rfl⟩ := pure_ok hk
  obtain ⟨resp₁, rfl, hgot⟩ := getJsonOr_ok hget
  obtain ⟨hhead, rfl⟩ := List.cons.inj htrace
  obtain rfl : resp = resp₁ := by
    cases hhead
    rfl
  cases envelopes_unique hanswer hgot
  have hfetch' : Runs (fetchRevision K dl).run
      [⟨.requestJson (.bare .get dl.revisionPath none), .ok resp'⟩]
      (.done (.ok { revision with xAttr := xattr })) :=
    Runs.bindE_one (getJsonOr_runs hanswer') (.ret _)
  -- the steps between the answer and the result do not look at the attributes
  refine ⟨verifyXattr K dl xattr t.totalBytes (K.sha1 t.hashed).1, ?_⟩
  exact DownloadParts.runs {
    revision := { revision with xAttr := xattr }, sessionKey := sk, tally := t,
    signatureVerified := verified, fetching := _, writing := writing, trace := rfl,
    fetched := hfetch', nonempty := hne, signed := hsig, key := hkey, wrote := hwrite,
    verified := hverified, reported := rfl }

/-! ## the signed revision -/

/-- a revision as its author made it: pieces of plaintext with their ciphertexts, and a signature of
the digests of the ciphertexts -/
structure SignedRevision (K : Crates) (P : OpenPgpCrypto) where
  pieces : List (Bytes × Bytes)
  sessionKey : SessionKey
  signer : PrivateKey
  signature : Bytes
  encrypted : ∀ piece ∈ pieces, ∃ keys key opts c,
    P.encryptAndSign piece.1 sessionKey keys key opts c = .ok piece.2
  signed : ∃ c, P.sign (digestsOf K (pieces.map (·.2))) signer "" c = .ok signature

namespace SignedRevision
variable {P : OpenPgpCrypto}

def ciphertexts (s : SignedRevision K P) : List Bytes := s.pieces.map (·.2)

def plaintext (s : SignedRevision K P) : Bytes := s.pieces.flatMap (·.1)

/-- the answer `r` carries the signature and the key of the revision, and a key of the signer is listed -/
structure AnsweredBy (s : SignedRevision K P) (pair : PrivateKey → PublicKey → Prop)
    (dl : FileDownloader) (r : Download.RevisionWithBlocks) : Prop where
  signature : r.manifestSignature = some (armor s.signature .signature)
  sessionKey : contentSessionKey dl r = .ok s.sessionKey
  signer : ∃ keys pub, dl.verificationKeys = .ok keys ∧ pub ∈ keys ∧ pair s.signer pub

/-- the list, in the order of its indices, carries the hashes that were signed -/
def ListedIn (s : SignedRevision K P) (blocks : List Download.BlockResponse) : Prop :=
  (Sorting.sortByKey (·.index) blocks).map (·.hash) =
    s.ciphertexts.map fun c => Base64.encode (K.sha256 c).1

/-- the plaintexts are what the ciphertexts decrypt to -/
theorem plaintext_eq {pair : PrivateKey → PublicKey → Prop} (ideal : IdealCrypto dl.crypto pair)
    {sk : SessionKey} {pieces : List (Bytes × Bytes)} {bs : List (DecryptedBlock K dl sk)}
    (hencrypted : ∀ piece ∈ pieces, ∃ keys key opts c,
      dl.crypto.encryptAndSign piece.1 sk keys key opts c = .ok piece.2)
    (heq : bs.map (·.ciphertext) = pieces.map (·.2)) :
    bs.flatMap (·.plaintext) = pieces.flatMap (·.1) := by
  induction bs generalizing pieces with
  | nil =>
    cases pieces with
    | nil => rfl
    | cons _ _ => cases heq
  | cons b bs ih =>
    cases pieces with
    | nil => cases heq
    | cons piece pieces =>
      obtain ⟨hb, hbs⟩ := List.cons.inj heq
      obtain ⟨keys, key, opts, c, henc⟩ := hencrypted piece List.mem_cons_self
      obtain ⟨status, hdec⟩ := ideal.decrypt henc
      have hplain : b.plaintext = piece.1 := by
        have hb' : b.resp.body = piece.2 := hb
        have h := b.decrypted
        rw [hb', hdec] at h
        exact (Prod.mk.inj (Except.ok.inj h)).1.symm
      rw [List.flatMap_cons, List.flatMap_cons, hplain,
        ih (fun p hp => hencrypted p (List.mem_cons_of_mem _ hp)) hbs]

/-- a download that got the signed ciphertexts has the signed plaintext -/
theorem AnsweredBy.plaintext_of_same {pair : PrivateKey → PublicKey → Prop}
    (ideal : IdealCrypto dl.crypto pair) {s : SignedRevision K dl.crypto}
    {f : DeliveredFile K dl tr stats} (hserved : s.AnsweredBy pair dl f.revision)
    (hsame : f.ciphertexts = s.ciphertexts) : f.blocks.flatMap (·.plaintext) = s.plaintext := by
  have hkey : s.sessionKey = f.sessionKey := Except.ok.inj (hserved.sessionKey.symm.trans f.key)
  have hencrypted := s.encrypted
  rw [hkey] at hencrypted
  exact plaintext_eq ideal hencrypted hsame

/-- blocks with the signed hashes have the signed ciphertexts -/
theorem ListedIn.same {Seen : Bytes → Prop}
    (hinjective : ∀ c c', Seen c → Seen c' → K.sha256 c = K.sha256 c' → c = c')
    {s : SignedRevision K P} {f : DeliveredFile K dl tr stats} (h : s.ListedIn f.revision.blocks)
    (hf : ∀ c ∈ f.ciphertexts, Seen c) (hs : ∀ c ∈ s.ciphertexts, Seen c) :
    f.ciphertexts = s.ciphertexts := by
  have hhashes : f.ciphertexts.map (fun c => Base64.encode (K.sha256 c).1) =
      (f.blocks.map (·.block)).map (·.hash) := by
    unfold DeliveredFile.ciphertexts
    rw [List.map_map, List.map_map]
    exact List.map_congr_left fun b _ => b.hash
  unfold ListedIn at h
  rw [← f.sorted, ← hhashes] at h
  have hdecoded := congrArg (List.map fun text => (Base64.decode text).getD []) h
  simp only [List.map_map, Function.comp_def, Base64.decode_encode, Option.getD_some] at hdecoded
  refine digestsOf_injective hinjective hf hs ?_
  unfold digestsOf
  rw [List.flatMap_def, List.flatMap_def, hdecoded]

end SignedRevision

/-- a signature verifies for nothing but what was signed -/
def Binding (P : OpenPgpCrypto) : Prop :=
  ∀ data key c sig payload keys, P.sign data key "" c = .ok sig →
    P.verify payload sig keys = .ok .ok → payload = data

/-- `signature_verified` says whether the blocks that were fetched are the ones that were signed -/
theorem DeliveredFile.verified_iff {pair : PrivateKey → PublicKey → Prop}
    (ideal : IdealCrypto dl.crypto pair) (binding : Binding dl.crypto) {Seen : Bytes → Prop}
    (hinjective : ∀ c c', Seen c → Seen c' → K.sha256 c = K.sha256 c' → c = c')
    (f : DeliveredFile K dl tr stats) (s : SignedRevision K dl.crypto)
    (hserved : s.AnsweredBy pair dl f.revision) (hf : ∀ c ∈ f.ciphertexts, Seen c)
    (hs : ∀ c ∈ s.ciphertexts, Seen c) :
    stats.signatureVerified = true ↔ f.ciphertexts = s.ciphertexts := by
  obtain ⟨keys, status, hkeys, hverify, hstatus⟩ := f.verify_eq
  obtain ⟨c, hsigned⟩ := s.signed
  have hsignature := Option.some.inj (f.signed.symm.trans hserved.signature)
  rw [hsignature, base64OrRaw_armor, ideal.armored_signature _ _ hsigned] at hverify
  rw [hstatus, decide_eq_true_iff]
  constructor
  · rintro rfl
    have hdigests := binding _ _ _ _ _ _ hsigned hverify
    exact digestsOf_injective hinjective hf hs hdigests
  · intro heq
    obtain ⟨keys', pub, hkeys', hpub, hpair⟩ := hserved.signer
    cases hkeys.symm.trans hkeys'
    have hok := ideal.verify hsigned hpub hpair
    rw [heq] at hverify
    cases hverify.symm.trans hok
    rfl

/-- what a completed transfer has done -/
theorem completed_download {pair : PrivateKey → PublicKey → Prop}
    (ideal : IdealCrypto client.openpgp pair) (binding : Binding client.openpgp)
    {Seen : Bytes → Prop}
    (hinjective : ∀ c c', Seen c → Seen c' → K.sha256 c = K.sha256 c' → c = c')
    {t : Transfer} (h : Reached (doDownload K client task) tr t) (hdone : t.state = .completed) :
    ∃ (d : FinishedDownload K client task tr) (f : DeliveredFile K d.dl d.body d.stats),
      f.blocks.map (·.block) = Sorting.sortByKey (·.index) f.revision.blocks ∧
      destination tr = some (task.destPath, f.blocks.flatMap (·.plaintext)) ∧
      (∀ s : SignedRevision K d.dl.crypto, s.AnsweredBy pair d.dl f.revision →
        (∀ c ∈ f.ciphertexts, Seen c) → (∀ c ∈ s.ciphertexts, Seen c) →
          (d.stats.signatureVerified = true ↔ f.ciphertexts = s.ciphertexts) ∧
          (d.stats.signatureVerified = true →
            destination tr = some (task.destPath, s.plaintext))) ∧
      ∀ xattr resp', K.Envelopes Download.GetRevisionResponse.ofJson resp'.body
          ⟨{ f.revision with xAttr := xattr }⟩ →
        ∃ rest, d.body = ⟨.requestJson (.bare .get d.dl.revisionPath none), .ok f.resp⟩ :: rest ∧
          ∃ tr', tr' = d.traceOf
              (⟨.requestJson (.bare .get d.dl.revisionPath none), .ok resp'⟩ :: rest) ∧
            Runs (doDownload K client task).run tr' (.done (.ok ())) ∧
            destination tr' = destination tr := by
  obtain ⟨d⟩ := doDownload_ok (h.completed hdone)
  obtain ⟨f⟩ := downloadToWriter_ok d.downloaded
  have hcrypto : d.dl.crypto = client.openpgp := fileDownloader_crypto d.resolved
  rw [← hcrypto] at ideal binding
  have hfile : destination tr = some (task.destPath, written d.body) := by
    rw [← d.destination_traceOf d.downloaded, d.traceOf_body]
  refine ⟨d, f, f.sorted, by rw [hfile, f.wrote], ?_, ?_⟩
  · intro s hserved hf hs
    have hiff := f.verified_iff ideal binding hinjective s hserved hf hs
    refine ⟨hiff, fun hverified => ?_⟩
    rw [hfile, f.wrote, hserved.plaintext_of_same ideal (hiff.mp hverified)]
  · intro xattr resp' hanswer'
    obtain ⟨rest, hrest⟩ := f.asked
    refine ⟨rest, hrest, _, rfl, ?_, ?_⟩
    · have hrun := d.downloaded
      rw [hrest] at hrun
      obtain ⟨mtime, hrun'⟩ := downloadToWriter_xattr f.answered hanswer' hrun
      exact FinishedDownload.runs
        { d with stats := { d.stats with lastModificationTime := mtime }, body := _, shape := rfl,
                 downloaded := hrun' }
    · have hrun := d.downloaded
      rw [hrest] at hrun
      obtain ⟨mtime, hrun'⟩ := downloadToWriter_xattr f.answered hanswer' hrun
      rw [d.destination_traceOf hrun', hfile, hrest]
      rfl

end

/-! ## whole files -/

section
variable (K : Crates) (client : ProtonDriveClient) (task : DownloadTask) (Seen : Bytes → Prop)
  (dl : FileDownloader) (r : Download.RevisionWithBlocks)

/-- the extended attributes can be read, and name another size or another digest than that of `content` -/
def Contradicted (xattr : Option String) (content : Bytes) : Prop :=
  ∃ doc, xattrOf K dl xattr = some doc ∧
    ((∃ n, ((doc.index "Common").index "Size").asU64 = some n ∧ n ≠ content.length) ∨
      ∃ h, (((doc.index "Common").index "Digests").index "SHA1").asStr = some h ∧
        h ≠ Hex.encode (K.sha1 content).1)

/-- whenever `do_download` returns `Ok` after the answer `r`, the list of the answer is the signed one and the
attributes do not contradict what was written, and a completed transfer has the whole plaintext -/
def CompletedIsWhole (s : SignedRevision K client.openpgp) : Prop :=
  ∀ tr (d : FinishedDownload K client task tr) (f : DeliveredFile K d.dl d.body d.stats),
    d.dl = dl → f.revision = r → (∀ c ∈ f.ciphertexts, Seen c) →
      (∀ t, Reached (doDownload K client task) tr t → t.state = .completed →
        destination tr = some (task.destPath, s.plaintext)) ∧
      s.ListedIn r.blocks ∧ ¬ Contradicted K dl r.xAttr (written d.body)

/-- the file is found, the list has blocks, each of them has a ciphertext with its hash that decrypts, and the
check of the signature has a verdict, whichever -/
structure Deliverable : Prop where
  resolved : ∃ setup, Runs (fileDownloader K client task.nodeUid).run setup (.done (.ok dl))
  nonempty : r.blocks ≠ []
  delivery : ∃ a : Delivery K dl r, ∀ c ∈ a.ciphertexts, Seen c
  verdict : ∃ verified, verifyManifest K dl (Sorting.sortByKey (·.index) r.blocks)
    r.manifestSignature = .ok verified

end

section
variable {K : Crates} {client : ProtonDriveClient} {task : DownloadTask} {Seen : Bytes → Prop}
  {dl : FileDownloader} {r : Download.RevisionWithBlocks} {stats : DownloadStats} {tr : Trace host}

theorem blobs_events {sk : SessionKey} (bs : List (DecryptedBlock K dl sk)) :
    blobs (bs.flatMap (·.events)) = bs.map (·.fetch) := by
  induction bs with
  | nil => rfl
  | cons b bs ih =>
    rw [List.flatMap_cons, blobs_append, ih]
    rfl

/-- what was fetched with the answers of `a` are the ciphertexts of `a` -/
theorem Delivery.ciphertexts_eq (a : Delivery K dl r) (f : DeliveredFile K dl a.trace stats) :
    f.ciphertexts = a.ciphertexts := by
  have hask : blobs [⟨.requestJson (.bare .get dl.revisionPath none), .ok a.resp⟩] = [] := rfl
  have hflush : blobs [⟨.flush, .ok ()⟩] = [] := rfl
  have hfetched := f.fetched
  unfold Delivery.trace at hfetched
  rw [blobs_append, blobs_append, hask, hflush, blobs_events, List.nil_append, List.append_nil] at hfetched
  have hbodies := congrArg
    (List.map fun p : BlobRequest × Except Error JsonResponse => p.2.toOption.map (·.body)) hfetched
  rw [List.map_map, List.map_map] at hbodies
  have hsome : (f.ciphertexts.map some : List (Option Bytes)) = a.ciphertexts.map some := by
    unfold DeliveredFile.ciphertexts Delivery.ciphertexts
    rw [List.map_map, List.map_map]
    exact hbodies.symm
  exact List.map_injective_iff.mpr (Option.some_injective Bytes) hsome

/-- whatever returned `Ok` could be delivered -/
theorem FinishedDownload.deliverable (d : FinishedDownload K client task tr)
    (f : DeliveredFile K d.dl d.body d.stats) (hseen : ∀ c ∈ f.ciphertexts, Seen c) :
    Deliverable K client task Seen d.dl f.revision where
  resolved := ⟨d.setup, d.resolved⟩
  nonempty := f.nonempty
  delivery := ⟨f.delivery, hseen⟩
  verdict := by
    refine ⟨d.stats.signatureVerified, ?_⟩
    rw [f.signed, ← f.sorted]
    exact f.verified

/-- what can be delivered is delivered -/
theorem Deliverable.finished (h : Deliverable K client task Seen dl r)
    (hsigned : r.manifestSignature.isSome = true) :
    ∃ (tr : Trace host) (d : FinishedDownload K client task tr)
      (f : DeliveredFile K d.dl d.body d.stats),
      d.dl = dl ∧ f.revision = r ∧ ∀ c ∈ f.ciphertexts, Seen c := by
  obtain ⟨setup, hresolved⟩ := h.resolved
  obtain ⟨a, hseen⟩ := h.delivery
  obtain ⟨verified, hverified⟩ := h.verdict
  obtain ⟨stats, hrun, _⟩ := a.runs h.nonempty hsigned hverified
  obtain ⟨f⟩ := downloadToWriter_ok hrun
  refine ⟨_, { dl, stats, setup, body := a.trace, shape := rfl, resolved := hresolved, downloaded := hrun },
    f, rfl, f.revision_eq rfl a.answered, ?_⟩
  rw [a.ciphertexts_eq f]
  exact hseen

/-- the code leaves the whole file just where nothing else can be delivered: it looks at the ciphertexts of the
list that it gets, and compares the list with nothing -/
theorem completed_whole_iff {pair : PrivateKey → PublicKey → Prop}
    (ideal : IdealCrypto client.openpgp pair)
    (hinjective : ∀ c c', Seen c → Seen c' → K.sha256 c = K.sha256 c' → c = c')
    {s : SignedRevision K client.openpgp} (hs : s.AnsweredBy pair dl r) (hseen : ∀ c ∈ s.ciphertexts, Seen c) :
    CompletedIsWhole K client task Seen dl r s ↔
      (Deliverable K client task Seen dl r →
        s.ListedIn r.blocks ∧ ¬ Contradicted K dl r.xAttr s.plaintext) := by
  -- with the signed list, what is written is the plaintext
  have hwhole : ∀ (tr : Trace host) (d : FinishedDownload K client task tr)
      (f : DeliveredFile K d.dl d.body d.stats), d.dl = dl → f.revision = r →
      (∀ c ∈ f.ciphertexts, Seen c) → s.ListedIn r.blocks → written d.body = s.plaintext := by
    intro tr ⟨dl', stats, setup, body, shape, resolved, downloaded⟩ f hd hf hfseen hlisted
    dsimp only at f hd hf hfseen
    subst hd hf
    have hcrypto := fileDownloader_crypto resolved
    obtain ⟨pgp, account⟩ := client
    dsimp only at ideal hcrypto s hs
    subst hcrypto
    rw [f.wrote]
    exact hs.plaintext_of_same ideal (hlisted.same hinjective hfseen hseen)
  constructor
  · intro hclaim hdeliverable
    have hsigned : r.manifestSignature.isSome = true := by
      rw [hs.signature]
      rfl
    obtain ⟨tr, d, f, hd, hf, hfseen⟩ := hdeliverable.finished hsigned
    obtain ⟨_, hlisted, hfits⟩ := hclaim tr d f hd hf hfseen
    refine ⟨hlisted, ?_⟩
    rw [← hwhole tr d f hd hf hfseen hlisted]
    exact hfits
  · intro hcond tr d f hd hf hfseen
    have hdeliverable := d.deliverable f hfseen
    rw [hf, hd] at hdeliverable
    obtain ⟨hlisted, hfits⟩ := hcond hdeliverable
    have hwritten := hwhole tr d f hd hf hfseen hlisted
    refine ⟨fun t _ _ => ?_, hlisted, ?_⟩
    · rw [← d.traceOf_body, d.destination_traceOf d.downloaded, hwritten]
    · rw [hwritten]
      exact hfits

end

/-! ## a revision of two blocks, served with one -/

/-- the author has encrypted "A" and "B" and signed both digests -/
def twoBlocks (K : Crates) : SignedRevision K transparentCrypto where
  pieces := [([65], smallCiphertext), ([66], otherCiphertext)]
  sessionKey := smallKey
  signer := addressKey
  signature := Transparent.Signature.bytes
    { signer := asBytes "addr", data := digestsOf K [smallCiphertext, otherCiphertext] }
  encrypted := by
    intro piece hpiece
    refine ⟨[], addressKey, {}, (0 : Nat), ?_⟩
    simp only [List.mem_cons, List.not_mem_nil, or_false] at hpiece
    rcases hpiece with rfl | rfl
    · rfl
    · rfl
  signed := ⟨(0 : Nat), rfl⟩

def shortSignature : String := smallSignature pairPayload

def shortRevision : Json := smallRevision [] [smallBlock 1] shortSignature

def shortDocs : List Json := [smallFileLink, smallShare, smallRoot, shortRevision]

def shortCrates : Crates := pairCrates shortDocs

def shortTask : DownloadTask :=
  { nodeUid := { volumeId := "s", nodeId := "file" }, nodeName := "f", destDir := "d" }

def resolveRun : Trace host × Option (Except Fault FileDownloader) :=
  (smallTransfer shortRevision).play (fileDownloader shortCrates smallClient shortTask.nodeUid)

def shortRun : Trace host × Option (Except Fault DownloadStats) :=
  (smallTransfer shortRevision).play (downloadToWriter shortCrates smallDownloader)

/-- a downloader without its crypto -/
structure DownloaderFacts where
  nodeUid : NodeUid
  volumeId : String
  shareId : String
  revisionId : String
  nodePrivateKey : PrivateKey
  signatureAddressPubs : List PublicKey
  contentKeyPacket : Option String
  deriving DecidableEq

def FileDownloader.facts (dl : FileDownloader) : DownloaderFacts where
  nodeUid := dl.nodeUid
  volumeId := dl.volumeId
  shareId := dl.shareId
  revisionId := dl.revisionId
  nodePrivateKey := dl.nodePrivateKey
  signatureAddressPubs := dl.signatureAddressPubs
  contentKeyPacket := dl.contentKeyPacket

theorem FileDownloader.facts_injective {dl dl' : FileDownloader} (hcrypto : dl.crypto = dl'.crypto)
    (h : dl.facts = dl'.facts) : dl = dl' := by
  obtain ⟨c, uid, vol, share, rev, key, pubs, packet⟩ := dl
  cases hcrypto
  cases h
  rfl

def resolves (r : Option (Except Fault FileDownloader)) : Bool :=
  match r with
  | some (.ok dl) => dl.facts = smallDownloader.facts
  | _ => false

theorem resolves_spec {run : Trace host × Option (Except Fault FileDownloader)}
    (hrun : run = resolveRun) (h : resolves run.2 = true) :
    Runs (fileDownloader shortCrates smallClient shortTask.nodeUid).run run.1
      (.done (.ok smallDownloader)) := by
  unfold resolves at h
  split at h
  · next dl hok =>
    have hdl := Script.play_runs (R := run) hrun hok
    have hcrypto : dl.crypto = smallDownloader.crypto := fileDownloader_crypto hdl
    rw [← FileDownloader.facts_injective hcrypto (of_decide_eq_true h)]
    exact hdl
  · cases h

set_option maxRecDepth 4000 in
theorem resolveRun_resolves : resolves resolveRun.2 = true := by decide +kernel

def deliversOneBlock (run : Trace host × Option (Except Fault DownloadStats)) : Bool :=
  match run.2 with
  | some (.ok _) => written run.1 = [65]
  | _ => false

theorem deliversOneBlock_spec {run : Trace host × Option (Except Fault DownloadStats)}
    (h : deliversOneBlock run = true) :
    ∃ stats, run.2 = some (.ok stats) ∧ written run.1 = [65] := by
  unfold deliversOneBlock at h
  split at h
  · next stats hok => exact ⟨stats, hok, of_decide_eq_true h⟩
  · cases h

set_option maxRecDepth 4000 in
theorem shortRun_delivers : deliversOneBlock shortRun = true := by decide +kernel

theorem script_uncancelled {α : Type} {s : Script} {p : Sdk α}
    {R : Trace host × Option (Except Fault α)} (hrun : R = s.play p) :
    ∀ e ∈ R.1, ∀ a, e = ⟨.isCancelled .transfer, a⟩ → a = false := by
  rintro e he a rfl
  obtain ⟨h, hans⟩ := Script.play_served hrun _ he
  exact hans

/-- the download of the short revision, from the uid of the file on -/
theorem shortRun_finished :
    ∃ (tr : Trace host) (d : FinishedDownload shortCrates smallClient shortTask tr),
      d.dl = smallDownloader ∧ d.body = shortRun.1 ∧ written d.body = [65] ∧
      ∀ e ∈ tr, ∀ a, e = ⟨.isCancelled .transfer, a⟩ → a = false := by
  have hresolved := resolves_spec rfl resolveRun_resolves
  obtain ⟨stats, hok, hwritten⟩ := deliversOneBlock_spec shortRun_delivers
  have hdownloaded := Script.play_runs (R := shortRun) rfl hok
  refine ⟨_, { dl := smallDownloader, stats, setup := resolveRun.1, body := shortRun.1, shape := rfl,
               resolved := hresolved, downloaded := hdownloaded }, rfl, rfl, hwritten, ?_⟩
  intro e he a ha
  simp only [List.mem_cons, List.mem_append, List.not_mem_nil, or_false] at he
  rcases he with rfl | he | rfl | rfl | rfl | he | rfl
  · cases ha
    rfl
  · exact script_uncancelled (R := resolveRun) rfl e he a ha
  · cases ha
  · cases ha
  · cases ha
    rfl
  · exact script_uncancelled (R := shortRun) rfl e he a ha
  · cases ha

theorem shortDocs_nodup : (shortDocs.map textOf).Nodup := by decide +kernel

def shortRecord : Download.RevisionWithBlocks := smallRecord [smallBlock 1] shortSignature

theorem shortRevision_envelopes :
    shortCrates.Envelopes Download.GetRevisionResponse.ofJson (textOf shortRevision) ⟨shortRecord⟩ :=
  pairCrates_envelopes (D := shortDocs) shortDocs_nodup
    (List.mem_cons_of_mem _ (List.mem_cons_of_mem _ (List.mem_cons_of_mem _ List.mem_cons_self)))
    (smallRevision_read _ (List.forall_mem_singleton.mpr ⟨by decide, rfl, rfl⟩) _)

theorem DeliveredFile.asked_mem {K : Crates} {dl : FileDownloader} {tr : Trace host}
    {stats : DownloadStats} (f : DeliveredFile K dl tr stats) :
    ⟨.requestJson (.bare .get dl.revisionPath none), .ok f.resp⟩ ∈ tr := by
  obtain ⟨rest, hrest⟩ := f.asked
  have hhead : ∀ (e : Event host) (l : Trace host), l = e :: rest → e ∈ l := by
    rintro e l rfl
    exact List.mem_cons_self
  exact hhead _ tr hrest

/-- the download gets the short revision, and for its block the first of the ciphertexts -/
theorem shortRun_answers {stats : DownloadStats}
    (f : DeliveredFile shortCrates smallDownloader shortRun.1 stats) :
    f.revision = shortRecord ∧ ∀ c ∈ f.ciphertexts, InPair c := by
  have hserved := Script.play_served (R := shortRun) rfl
  constructor
  · obtain ⟨_, hans⟩ := hserved _ f.asked_mem
    have hbody : f.resp.body = textOf shortRevision :=
      congrArg JsonResponse.body (Except.ok.inj hans)
    exact congrArg Download.GetRevisionResponse.revision
      (envelopes_unique f.answered (hbody ▸ shortRevision_envelopes))
  · intro c hc
    obtain ⟨b, hb, rfl⟩ := List.mem_map.mp hc
    have hfetch : b.fetch ∈ blobs shortRun.1 := by
      rw [f.fetched]
      exact List.mem_map_of_mem hb
    obtain ⟨⟨call, ans⟩, he, hblob⟩ := List.mem_filterMap.mp hfetch
    obtain ⟨_, hans⟩ := hserved _ he
    cases call with
    | requestBlob req =>
      obtain ⟨_, hresp⟩ := Prod.mk.inj (Option.some.inj hblob)
      have hbody : b.resp.body = smallCiphertext :=
        congrArg JsonResponse.body (Except.ok.inj (hresp.symm.trans hans))
      exact List.mem_cons.mpr (.inl hbody)
    | _ => cases hblob

theorem twoBlocks_answered :
    (twoBlocks shortCrates).AnsweredBy sameFingerprint smallDownloader shortRecord :=
  ⟨rfl, smallDownloader_key _, _, _, rfl, List.mem_singleton.mpr rfl, rfl⟩

/-- the server lists the first of the two blocks; the transfer is completed, and its file has one byte
of the two -/
theorem shortRun_breaks_completion :
    ¬ CompletedIsWhole shortCrates smallClient shortTask InPair smallDownloader shortRecord
        (twoBlocks shortCrates) ∧
      (twoBlocks shortCrates).AnsweredBy sameFingerprint smallDownloader shortRecord ∧
      ∃ tr t, Reached (doDownload shortCrates smallClient shortTask) tr t ∧ t.state = .completed ∧
        destination tr = some (shortTask.destPath, [65]) ∧ (twoBlocks shortCrates).plaintext = [65, 66] := by
  obtain ⟨tr, d, hdl, hbody, hwritten, hfree⟩ := shortRun_finished
  obtain ⟨t, hreached, hdone⟩ := Reached.of_done d.runs hfree
  have hfile := d.destination_traceOf d.downloaded
  rw [d.traceOf_body, hwritten] at hfile
  refine ⟨fun hclaim => ?_, twoBlocks_answered, tr, t, hreached, hdone, hfile, rfl⟩
  obtain ⟨f⟩ := downloadToWriter_ok d.downloaded
  obtain ⟨dl, stats, setup, body, shape, resolved, downloaded⟩ := d
  dsimp only at hdl hbody
  subst hdl
  subst hbody
  obtain ⟨hrevision, hseen⟩ := shortRun_answers f
  obtain ⟨hwhole, _⟩ := hclaim tr _ f rfl hrevision hseen
  have hbytes : ([65] : Bytes) = [65, 66] :=
    (Prod.mk.inj (Option.some.inj (hfile.symm.trans (hwhole t hreached hdone)))).2
  cases hbytes

theorem shortRun_whole_iff :
    CompletedIsWhole shortCrates smallClient shortTask InPair smallDownloader shortRecord
        (twoBlocks shortCrates) ↔
      (Deliverable shortCrates smallClient shortTask InPair smallDownloader shortRecord →
        (twoBlocks shortCrates).ListedIn shortRecord.blocks ∧
          ¬ Contradicted shortCrates smallDownloader shortRecord.xAttr (twoBlocks shortCrates).plaintext) :=
  completed_whole_iff transparent_ideal pairCrates_injective twoBlocks_answered fun _ hc => hc

end ProtonDrive
