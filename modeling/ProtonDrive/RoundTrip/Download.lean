import ProtonDrive.Core.Scripted
import ProtonDrive.Download.Steps
import ProtonDrive.RoundTrip.Store

/-!
# Upload, then download

Run against a server that keeps the records of an upload and answers from them, the download of the file
returns `Ok` with a verified signature, and has written the bytes that were read for the upload
(`upload_download`).
-/

set_option linter.unusedVariables false

namespace ProtonDrive
open Encoding Effects Api

/-! ## the download -/

section
variable {K : Crates} {up : ProtonFileUploader} {tr : Trace host} {s : Store}
  {client : ProtonDriveClient} {serve : Trace host → (c : HostCall) → c.Ans}
  {pair : PrivateKey → PublicKey → Prop} {addressPriv : PrivateKey} {content : Bytes}

/-- the whole download of a node -/
def downloadNode (K : Crates) (client : ProtonDriveClient) (uid : NodeUid) : Sdk DownloadStats := do
  let downloader ← fileDownloader K client uid
  downloadToWriter K downloader

/-- what is known of the downloader of the file -/
structure Resolved (r : Readable K up.openpgp pair up.parent.nodeId up.account.primaryEmail
    (storedBlocks s.links tr) s addressPriv content) (dl : FileDownloader) : Prop where
  crypto : dl.crypto = up.openpgp
  path : dl.revisionPath = commitPath s.share.volumeId s.file.linkId s.file.revisionId
  nodePrivateKey : dl.nodePrivateKey = r.nodePriv
  contentKeyPacket : dl.contentKeyPacket = some (Base64.encode r.packet)
  signer : ∃ keys pub, dl.verificationKeys = .ok keys ∧ pub ∈ keys ∧ pair addressPriv pub

theorem fileDownloader_gives (hkeeps : s.Keeps K up tr) (hserves : s.Serves K up tr serve)
    (r : Readable K up.openpgp pair up.parent.nodeId up.account.primaryEmail
      (storedBlocks s.links tr) s addressPriv content)
    (hcrypto : client.openpgp = up.openpgp)
    (haddress : client.account.addressPrivateKey client.account.primaryEmail = .ok addressPriv)
    (hpubs : ∃ keys pub, client.account.addressPublicKeys up.account.primaryEmail = .ok keys ∧
      pub ∈ keys ∧ pair addressPriv pub) :
    Gives serve (fileDownloader K client ⟨up.parent.volumeId, s.file.linkId⟩) (Resolved r) [] := by
  obtain ⟨keys, pub, hkeys, hpub, hpair⟩ := hpubs
  have hlink : Gives serve (getLink K up.parent.volumeId s.file.linkId) (· = s.link) [] :=
    (Gives.getJsonOr hserves.link).silentThen (.pure rfl)
  have hparent : Gives serve (getLink K up.parent.volumeId up.parent.nodeId) (· = s.parent) [] :=
    (Gives.getJsonOr hserves.parent).silentThen (.pure rfl)
  refine hlink.silentThen ?_
  refine (Gives.require (decide_eq_true hkeeps.type)).silentThen ?_
  have hprops : s.link.fileProperties.elim (.error (.internal "file link missing FileProperties"))
      .ok = (.ok s.contents : Except Error Nodes.FileProperties) := by rw [hkeeps.fileProperties]; rfl
  refine (Gives.ofExcept hprops).silentThen ?_
  have hactive : s.contents.activeRevision.elim (.error (.notFound "file has no active revision"))
      .ok = (.ok s.active : Except Error Nodes.Revision) := by rw [hkeeps.activeRevision]; rfl
  refine (Gives.ofExcept hactive).silentThen ?_
  refine Gives.silentThen (a := s.share.volumeId)
    ((Gives.getJsonOr hserves.share).silentThen (.pure rfl)) ?_
  refine Gives.silentThen (a := r.sharePriv) ?_ ?_
  · refine (Gives.getJsonOr hserves.share).silentThen ?_
    refine (Gives.ofExcept haddress).silentThen ?_
    rw [hcrypto]
    exact Gives.ofExcept r.shareUnlocked
  refine Gives.silentThen (a := r.nodePriv) ?_ ?_
  · have hchain : Gives serve (collectChain K up.parent.volumeId MAX_CHAIN_DEPTH s.file.linkId)
        (· = [s.link, s.parent]) [] := by
      refine hlink.silentThen ?_
      rw [r.linkParent]
      refine Gives.silentThen (a := [s.parent]) ?_ (.pure rfl)
      refine hparent.silentThen ?_
      rw [r.root]
      exact .pure rfl
    refine hchain.silentThen (Gives.ofExcept ?_)
    show unlockChain K client.openpgp r.sharePriv [s.parent, s.link] = .ok r.nodePriv
    rw [hcrypto]
    simp only [unlockChain, r.parentUnlocked, r.nodeUnlocked]
  · refine .pure ⟨hcrypto, ?_, rfl, r.packetKept, keys, pub, ?_, hpub, hpair⟩
    · show commitPath s.share.volumeId s.file.linkId s.active.id = _
      rw [hkeeps.revisionId]
    · have hne : keys.isEmpty = false := by
        cases keys with
        | nil => cases hpub
        | cons _ _ => rfl
      unfold FileDownloader.verificationKeys
      simp only [r.email, hkeys, Except.toOption, Option.getD_some, hne, Bool.false_eq_true, if_false]

/-- the loop over blocks that are served as they were stored -/
theorem writeBlocks_gives {dl : FileDownloader} {sk : SessionKey} (hserves : s.Serves K up tr serve)
    {blocks : List Download.BlockResponse} {stored : List (Nat × Bytes)} {plaintexts : List Bytes}
    (hsame : blocks.map (fun b => (b.index, b.hash)) =
      stored.map fun p => (p.1, Base64.encode (K.sha256 p.2).1))
    (hblocks : ∀ b ∈ blocks, b ∈ s.revision.blocks)
    (hstored : ∀ p ∈ stored, p ∈ storedBlocks s.links tr)
    (hopens : List.Forall₂ (fun plain p => ∃ status,
      dl.crypto.decryptAndVerify p.2 sk [] = .ok (plain, status)) plaintexts stored) (t : Tally) :
    Gives serve (writeBlocks K dl sk blocks t)
      (fun t' => t'.hashed = t.hashed ++ plaintexts.flatten ∧
        t'.totalBlocks = (t.totalBlocks + stored.length) % 2 ^ 32) plaintexts.flatten := by
  induction hopens generalizing blocks t with
  | nil =>
    rw [List.map_eq_nil_iff.mp hsame]
    exact .pure ⟨(List.append_nil _).symm, (Nat.mod_eq_of_lt t.fits).symm⟩
  | @cons plain p plaintexts stored hopen _ ih =>
    cases blocks with
    | nil => cases hsame
    | cons b blocks =>
      obtain ⟨hb, hrest⟩ := List.cons.inj hsame
      obtain ⟨hindex, hhash⟩ := Prod.mk.inj hb
      obtain ⟨status, hopen⟩ := hopen
      have hkept : (b.index, p.2) ∈ storedBlocks s.links tr := by
        rw [hindex]
        exact hstored p List.mem_cons_self
      have hfetch : Gives serve (fetchAndDecryptBlock K dl sk b) (· = plain) [] := by
        refine Gives.bind (Gives.requestBlob fun h => hserves.block h b
          (hblocks b List.mem_cons_self) p.2 hkept) fun resp hbody => ?_
        have hcheck : Base64.encode (K.sha256 resp.body).1 = b.hash := by rw [hbody, hhash]
        refine (Gives.require (decide_eq_true hcheck)).silentThen ?_
        rw [← hbody] at hopen
        exact (Gives.ofExcept hopen).silentThen (.pure rfl)
      refine hfetch.silentThen ?_
      refine Gives.bind (Gives.call fun h => hserves.write h plain) fun r hr => ?_
      subst hr
      refine Gives.silentThen (a := ()) (Gives.ofExcept rfl) ?_
      have hloop := ih hrest (fun b' hb' => hblocks b' (List.mem_cons_of_mem _ hb'))
        (fun p' hp' => hstored p' (List.mem_cons_of_mem _ hp')) (t.add plain)
      intro h
      obtain ⟨u, t', hy, hw, hhashed, hcount⟩ := hloop h
      refine ⟨u, t', hy, hw, ?_, ?_⟩
      · rw [hhashed]
        exact List.append_assoc _ _ _
      · rw [hcount, List.length_cons]
        show ((t.totalBlocks + 1) % 2 ^ 32 + _) % 2 ^ 32 = _
        omega

/-- sorted by their indices, the listed blocks are the stored ones -/
theorem Store.Keeps.sorted_eq (hkeeps : s.Keeps K up tr)
    (hnumbered : ((storedBlocks s.links tr).map Prod.fst).Pairwise (· < ·)) :
    (Sorting.sortByKey (·.index) s.revision.blocks).map (fun b => (b.index, b.hash)) =
      (storedBlocks s.links tr).map fun p => (p.1, Base64.encode (K.sha256 p.2).1) := by
  have hincreasing := List.pairwise_map.mp hnumbered
  have hnodup : ((storedBlocks s.links tr).map fun p => p.1).Nodup :=
    hnumbered.imp fun h => Nat.ne_of_lt h
  have hsorted := Sorting.map_sortByKey_eq (fun b : Download.BlockResponse => b.index) (k := Prod.fst)
    (fun _ => rfl) (fun _ => rfl) hkeeps.blocks hnodup
  rw [Sorting.sortByKey_of_perm _ (List.Perm.refl (storedBlocks s.links tr)) hincreasing] at hsorted
  exact hsorted

theorem downloadToWriter_gives (ideal : IdealCrypto up.openpgp pair) (hkeeps : s.Keeps K up tr)
    (hserves : s.Serves K up tr serve)
    (r : Readable K up.openpgp pair up.parent.nodeId up.account.primaryEmail
      (storedBlocks s.links tr) s addressPriv content) {dl : FileDownloader} (hdl : Resolved r dl) :
    Gives serve (downloadToWriter K dl) (fun stats => stats.signatureVerified = true ∧
      stats.bytes = content.length % 2 ^ 64 ∧
      stats.blocks = (storedBlocks s.links tr).length % 2 ^ 32 ∧
      stats.lastModificationTime =
        verifyXattr K dl s.revision.xAttr content.length (K.sha1 content).1) content := by
  have hsorted := hkeeps.sorted_eq r.numbered
  have hrevision : Gives serve (fetchRevision K dl) (· = s.revision) [] := by
    have hanswer := hserves.revision
    rw [← hdl.path] at hanswer
    exact (Gives.getJsonOr hanswer).silentThen (.pure rfl)
  refine hrevision.silentThen ?_
  have hne : s.revision.blocks ≠ [] := by
    intro hnil
    have hlen := hkeeps.blocks.length_eq
    rw [hnil, List.length_map, List.length_map] at hlen
    exact r.nonempty (List.length_eq_zero_iff.mp hlen.symm)
  have hnonempty : (!s.revision.blocks.isEmpty) = true := by
    rw [Bool.not_eq_true', List.isEmpty_eq_false_iff]
    exact hne
  refine (Gives.require hnonempty).silentThen ?_
  have hsigned : s.revision.manifestSignature.isSome = true := by
    rw [r.manifest]
    rfl
  refine (Gives.require hsigned).silentThen ?_
  have hopen : dl.crypto.decryptSessionKey r.packet [dl.nodePrivateKey] = .ok r.sessionKey := by
    rw [hdl.crypto, hdl.nodePrivateKey]
    exact r.packetOpens
  refine (Gives.ofExcept (contentSessionKey_encoded hdl.contentKeyPacket hopen)).silentThen ?_
  have hopens : List.Forall₂ (fun plain p => ∃ status,
      dl.crypto.decryptAndVerify p.2 r.sessionKey [] = .ok (plain, status)) r.plaintexts
      (storedBlocks s.links tr) := by
    rw [hdl.crypto]
    exact r.opens
  have hloop := writeBlocks_gives hserves hsorted
    (fun b hb => (Sorting.mem_sortByKey _).mp hb) (fun _ hp => hp) hopens Tally.empty
  rw [r.flatten] at hloop
  have hpayload : manifestOf K (Sorting.sortByKey (·.index) s.revision.blocks) =
      .ok ((storedBlocks s.links tr).flatMap fun p => (K.sha256 p.2).1) := by
    have hhashes : (Sorting.sortByKey (·.index) s.revision.blocks).map (·.hash) =
        ((storedBlocks s.links tr).map fun p => (K.sha256 p.2).1).map Base64.encode := by
      have hsnd := congrArg (List.map Prod.snd) hsorted
      rw [List.map_map, List.map_map] at hsnd
      rw [List.map_map]
      exact hsnd
    exact manifestOf_encoded hhashes
  have hverified : verifyManifest K dl (Sorting.sortByKey (·.index) s.revision.blocks)
      s.revision.manifestSignature = .ok true := by
    obtain ⟨keys, pub, hkeys, hpub, hpair⟩ := hdl.signer
    have hok : dl.crypto.verify ((storedBlocks s.links tr).flatMap fun p => (K.sha256 p.2).1)
        (base64OrRaw (armor r.signature .signature)) keys = .ok .ok := by
      rw [hdl.crypto, base64OrRaw_armor, ideal.armored_signature _ _ r.signed]
      exact ideal.verify r.signed hpub hpair
    rw [r.manifest]
    unfold verifyManifest
    simp only [hpayload, hkeys, bind, Except.bind, hok]
    rfl
  refine Gives.thenSilent hloop fun t ht => ?_
  obtain ⟨hhashed, hcount⟩ := ht
  refine Gives.silentThen (Gives.call hserves.flush) ?_
  refine Gives.silentThen (a := ()) (Gives.ofExcept rfl) ?_
  have hhashed : t.hashed = content := hhashed
  have hbytes : t.totalBytes = content.length % 2 ^ 64 := by rw [t.fed, hhashed]
  refine (Gives.ofExcept hverified).silentThen (.pure ⟨rfl, hbytes, ?_, ?_⟩)
  · rw [hcount]
    exact congrArg (· % 2 ^ 32) (Nat.zero_add _)
  · show verifyXattr K dl s.revision.xAttr t.totalBytes (K.sha1 t.hashed).1 = _
    rw [hbytes, hhashed]
    rfl

theorem downloadNode_gives (ideal : IdealCrypto up.openpgp pair) (hkeeps : s.Keeps K up tr)
    (hserves : s.Serves K up tr serve)
    (r : Readable K up.openpgp pair up.parent.nodeId up.account.primaryEmail
      (storedBlocks s.links tr) s addressPriv content)
    (hcrypto : client.openpgp = up.openpgp)
    (haddress : client.account.addressPrivateKey client.account.primaryEmail = .ok addressPriv)
    (hpubs : ∃ keys pub, client.account.addressPublicKeys up.account.primaryEmail = .ok keys ∧
      pub ∈ keys ∧ pair addressPriv pub) :
    Gives serve (downloadNode K client ⟨up.parent.volumeId, s.file.linkId⟩)
      (fun stats => ∃ dl, Resolved r dl ∧ stats.signatureVerified = true ∧
        stats.bytes = content.length % 2 ^ 64 ∧
      stats.blocks = (storedBlocks s.links tr).length % 2 ^ 32 ∧
        stats.lastModificationTime =
          verifyXattr K dl s.revision.xAttr content.length (K.sha1 content).1) ([] ++ content) := by
  have hresolve := fileDownloader_gives hkeeps hserves r hcrypto haddress hpubs
  refine hresolve.bind fun dl hdl h => ?_
  obtain ⟨tr', stats, hy, hw, hstats⟩ := downloadToWriter_gives ideal hkeeps hserves r hdl h
  exact ⟨tr', stats, hy, hw, dl, hdl, hstats⟩

/-- what was uploaded can be downloaded, whatever the server did in between, if it kept the
records of the upload and answers from them -/
theorem upload_download {fuel : Nat} (ideal : IdealCrypto up.openpgp pair)
    (hupload : Runs (runUpload K up fuel).run tr (.done (.ok ()))) (hkeeps : s.Keeps K up tr)
    (hcrypto : client.openpgp = up.openpgp)
    (haddress : client.account.addressPrivateKey client.account.primaryEmail =
      up.account.addressPrivateKey up.account.primaryEmail)
    (hpubs : ∀ key, up.account.addressPrivateKey up.account.primaryEmail = .ok key →
      ∃ keys pub, client.account.addressPublicKeys up.account.primaryEmail = .ok keys ∧
        pub ∈ keys ∧ pair key pub)
    (hserves : s.Serves K up tr serve) (h : Trace host) :
    ∃ tr' stats, Yields serve h (downloadNode K client ⟨up.parent.volumeId, s.file.linkId⟩) tr' stats ∧
      written tr' = delivered tr ∧ stats.signatureVerified = true ∧
      stats.bytes = (delivered tr).length % 2 ^ 64 ∧
      stats.blocks = (storedBlocks s.links tr).length % 2 ^ 32 ∧
      ((delivered tr).length ≤ MAX_FILE_SIZE → stats.bytes = (delivered tr).length ∧
        stats.blocks = (storedBlocks s.links tr).length) := by
  obtain ⟨addressPriv, hkey, ⟨r⟩⟩ := hkeeps.readable ideal hupload
  obtain ⟨tr', stats, hy, hw, _, _, hverified, hbytes, hblocks, _⟩ :=
    downloadNode_gives ideal hkeeps hserves r hcrypto (haddress.trans hkey) (hpubs _ hkey) h
  refine ⟨tr', stats, hy, hw, hverified, hbytes, hblocks, fun hsmall => ?_⟩
  have hcount := r.count_le
  unfold MAX_FILE_SIZE at hsmall
  rw [hbytes, hblocks]
  omega

end

/-! ## a small round trip -/

def roundLink : Upload.UploadLink := { index := 1, bareUrl := "storage", token := "t" }

/-- the passphrase "1" of the new node key "2", sealed with the sixth random value for the folder -/
def roundPassphrase : String :=
  armor (Transparent.encrypt (asBytes "1") { data := [53], cipherAlgorithm := 9, aead := .none }
    [{ armored := "dir", fingerprintHex := "dir" }]) .message

def roundPacket : Bytes := Transparent.encrypt [] smallKey [{ armored := "2", fingerprintHex := "2" }]

def roundSignature : String := smallSignature smallDigest

def roundXattr : String :=
  armor (Transparent.encrypt (asBytes (buildXattrJson 1 [1]
    (Hex.encode ((smallCrates []).sha1 [65]).1) none))
    { data := asBytes "26", cipherAlgorithm := 9, aead := .none }
    [{ armored := "2", fingerprintHex := "2" }]) .message

def roundFileLink : Json :=
  .obj [("Code", .num 1000), ("Link", .obj [("LinkID", .str "file"), ("ParentLinkID", .str "root"),
    ("Type", .num 2), ("Name", .str ""), ("State", .num 1), ("Size", .num 0),
    ("CreateTime", .num 0), ("ModifyTime", .num 0), ("NodeKey", .str "2"),
    ("NodePassphrase", .str roundPassphrase), ("NodePassphraseSignature", .str ""),
    ("FileProperties", .obj [("ContentKeyPacket", .str (Base64.encode roundPacket)),
      ("ActiveRevision", .obj [("ID", .str "rev"), ("SignatureEmail", .str "me")])])])]

def roundRevision : Json :=
  .obj [("Code", .num 1000), ("Revision", .obj [("ID", .str "rev"),
    ("Blocks", .arr [.obj [("Index", .num 1), ("BareURL", .str "block"), ("Token", .str "u"),
      ("Hash", .str (Base64.encode smallDigest))]]),
    ("ManifestSignature", .str roundSignature), ("XAttr", .str roundXattr)])]

def roundDocs : List Json := smallDocs [roundLink] ++ [roundFileLink, roundRevision]

def roundCrates : Crates := smallCrates roundDocs

def roundUpload : Trace host × Option (Except Fault Unit) :=
  (smallUpload [roundLink]).play (runUpload roundCrates smallUploader 1)

def roundServer : Script where
  json _ path :=
    if path = "/drive/shares/s/links/file" then textOf roundFileLink
    else (smallTree path).elim (textOf roundRevision) textOf
  blob _ := { status := 200, headers := [], body := smallCiphertext }
  stream := []

/-- the requests of the upload say what the records say -/
def saysRecords : HostCall → Bool
  | .requestJson req =>
    match req.method, req.body with
    | .post, some body => req.path = blocksPath ∨
        (body.required Json.asStr "ParentLinkID" = some "root" ∧
          body.required Json.asStr "NodeKey" = some "2" ∧
          body.required Json.asStr "NodePassphrase" = some roundPassphrase ∧
          body.required Json.asStr "ContentKeyPacket" = some (Base64.encode roundPacket))
    | .put, some body =>
      body.required Json.asStr "ManifestSignature" = some roundSignature ∧
        body.required Json.asStr "XAttr" = some roundXattr ∧
        body.required Json.asStr "SignatureAddress" = some "me"
    | _, _ => true
  | _ => true

def storesOne (run : Trace host × Option (Except Fault Unit)) : Bool :=
  match run.2 with
  | some (.ok ()) => storedBlocks [roundLink] run.1 = [(1, smallCiphertext)] ∧
      run.1.all fun e => saysRecords e.call
  | _ => false

theorem storesOne_spec {run : Trace host × Option (Except Fault Unit)} (h : storesOne run = true) :
    run.2 = some (.ok ()) ∧ storedBlocks [roundLink] run.1 = [(1, smallCiphertext)] ∧
      ∀ e ∈ run.1, saysRecords e.call = true := by
  unfold storesOne at h
  split at h
  · next hok =>
    obtain ⟨hstored, hall⟩ := of_decide_eq_true h
    exact ⟨hok, hstored, List.all_eq_true.mp hall⟩
  · cases h

set_option maxRecDepth 4000 in
theorem roundUpload_stores : storesOne roundUpload = true := by decide +kernel

theorem roundDocs_nodup : (roundDocs.map textOf).Nodup := by decide +kernel

theorem roundCrates_envelopes {j : Json} (hj : j ∈ roundDocs) {α : Type} {dec : Json → Option α}
    {a : α} (hdec : ResponseEnvelope.ofJson dec j = some { code := CODE_OK, inner := a, error := none }) :
    roundCrates.Envelopes dec (textOf j) a :=
  smallCrates_envelopes (D := roundDocs) roundDocs_nodup hj hdec

theorem roundShare_read : ∃ share,
    roundCrates.Envelopes Shares.GetShareResponse.ofJson (textOf smallShare) ⟨share⟩ ∧
      share.volumeId = "v" :=
  ⟨_, roundCrates_envelopes (by simp [roundDocs, smallDocs]) rfl, rfl⟩

theorem roundRoot_read : ∃ link,
    roundCrates.Envelopes Nodes.GetLinkResponse.ofJson (textOf smallRoot) ⟨link⟩ ∧
      link.parentLinkId = none :=
  ⟨_, roundCrates_envelopes (by simp [roundDocs, smallDocs]) rfl, rfl⟩

theorem roundFile_read : roundCrates.Envelopes Upload.CreateFileResponse.ofJson (textOf smallFile)
    ⟨⟨"file", "rev"⟩⟩ := roundCrates_envelopes (by simp [roundDocs, smallDocs]) rfl

theorem roundLinks_read : roundCrates.Envelopes Upload.RequestBlockUploadResponse.ofJson
    (textOf (smallLinks [roundLink])) ⟨[roundLink]⟩ :=
  roundCrates_envelopes (by simp [roundDocs, smallDocs]) rfl

theorem roundFileLink_read : ∃ link contents active,
    roundCrates.Envelopes Nodes.GetLinkResponse.ofJson (textOf roundFileLink) ⟨link⟩ ∧
      link.type = 2 ∧ link.parentLinkId = some "root" ∧ link.nodeKey = "2" ∧
      link.nodePassphrase = roundPassphrase ∧ link.fileProperties = some contents ∧
      contents.contentKeyPacket = some (Base64.encode roundPacket) ∧
      contents.activeRevision = some active ∧ active.id = "rev" ∧ active.signatureEmail = some "me" :=
  ⟨_, _, _, roundCrates_envelopes (by simp [roundDocs]) rfl, rfl, rfl, rfl, rfl, rfl, rfl, rfl, rfl,
    rfl⟩

theorem roundRevision_read : ∃ revision,
    roundCrates.Envelopes Download.GetRevisionResponse.ofJson (textOf roundRevision) ⟨revision⟩ ∧
      revision.blocks = [⟨1, "block", "u", Base64.encode smallDigest, none, 0⟩] ∧
      revision.manifestSignature = some roundSignature ∧ revision.xAttr = some roundXattr :=
  ⟨_, roundCrates_envelopes (by simp [roundDocs]) rfl, rfl, rfl, rfl⟩

/-- the answer to a request of the small upload -/
theorem roundUpload_answer {req : JsonRequest} {resp : JsonResponse}
    (h : ⟨.requestJson req, .ok resp⟩ ∈ roundUpload.1) :
    resp.body = (smallAnswer [roundLink] req.method req.path).elim [] textOf := by
  obtain ⟨_, hans⟩ := Script.play_served (R := roundUpload) rfl _ h
  exact congrArg JsonResponse.body (Except.ok.inj hans)

theorem roundUpload_created {volumeId : String} {req : Upload.CreateFileRequest}
    {file : Upload.CreatedFile} (h : Posted roundCrates roundUpload.1
      Upload.CreateFileResponse.ofJson (filesPath volumeId) req.toJson ⟨file⟩) :
    file = ⟨"file", "rev"⟩ ∧ req.parentLinkId = "root" ∧ req.nodeKey = "2" ∧
      req.nodePassphrase = roundPassphrase ∧ req.contentKeyPacket = Base64.encode roundPacket := by
  obtain ⟨_, _, hall⟩ := storesOne_spec roundUpload_stores
  obtain ⟨resp, hmem, henv⟩ := h
  have hbody := roundUpload_answer hmem
  change resp.body = (if filesPath volumeId = blocksPath then some (smallLinks [roundLink])
    else some smallFile).elim [] textOf at hbody
  rw [if_neg (filesPath_ne_blocksPath volumeId)] at hbody
  have hread : roundCrates.Envelopes Upload.CreateFileResponse.ofJson resp.body ⟨⟨"file", "rev"⟩⟩ :=
    hbody ▸ roundFile_read
  have hsays := of_decide_eq_true (hall _ hmem)
  obtain ⟨hparent, hkey, hpassphrase, hpacket⟩ :=
    hsays.resolve_left (filesPath_ne_blocksPath volumeId)
  exact ⟨congrArg Upload.CreateFileResponse.file (envelopes_unique henv hread),
    Option.some.inj hparent, Option.some.inj hkey, Option.some.inj hpassphrase,
    Option.some.inj hpacket⟩

theorem roundUpload_committed {path : String} {req : Upload.CommitRevisionRequest}
    {ans : Except Error JsonResponse}
    (h : ⟨.requestJson (.bare .put path (some req.toJson)), ans⟩ ∈ roundUpload.1) :
    req.manifestSignature = roundSignature ∧ req.xAttr = roundXattr ∧
      req.signatureAddress = "me" := by
  obtain ⟨_, _, hall⟩ := storesOne_spec roundUpload_stores
  obtain ⟨hmanifest, hxattr, haddress⟩ := of_decide_eq_true (hall _ h)
  exact ⟨Option.some.inj hmanifest, Option.some.inj hxattr, Option.some.inj haddress⟩

theorem roundUpload_linked {body : Option Json} {resp : JsonResponse}
    {links : List Upload.UploadLink} (h : (body, .ok resp) ∈ posts blocksPath roundUpload.1)
    (henv : roundCrates.Envelopes Upload.RequestBlockUploadResponse.ofJson resp.body ⟨links⟩) :
    links = [roundLink] := by
  obtain ⟨req, hmem, hmethod, hpath, _⟩ := exists_of_mem_posts h
  have hbody := roundUpload_answer hmem
  rw [hmethod, hpath] at hbody
  exact congrArg Upload.RequestBlockUploadResponse.uploadLinks
    (envelopes_unique henv (hbody ▸ roundLinks_read))

/-- the records of the small upload, and the download made of them -/
theorem roundUpload_download : ∃ tr' stats,
    Yields roundServer.serve [] (downloadNode roundCrates smallClient ⟨"s", "file"⟩) tr' stats ∧
      written tr' = delivered roundUpload.1 ∧ stats.signatureVerified = true := by
  obtain ⟨hok, hstored, _⟩ := storesOne_spec roundUpload_stores
  obtain ⟨share, hshare, hvolume⟩ := roundShare_read
  obtain ⟨parent, hparent, hroot⟩ := roundRoot_read
  obtain ⟨link, contents, active, hlink, htype, hup, hkey, hpass, hprops, hpacket, hactive, hid,
    hemail⟩ := roundFileLink_read
  obtain ⟨revision, hrevision, hblocks, hmanifest, hxattr⟩ := roundRevision_read
  let s : Store := { share, parent, file := ⟨"file", "rev"⟩, link, contents, active,
                     links := [roundLink], revision }
  have hkeeps : s.Keeps roundCrates smallUploader roundUpload.1 := {
    share := by
      intro share' ⟨resp, hmem, henv⟩
      have hbody := roundUpload_answer hmem
      exact congrArg Shares.GetShareResponse.share (envelopes_unique henv (hbody ▸ hshare))
    parent := by
      intro link' ⟨resp, hmem, henv⟩
      have hbody := roundUpload_answer hmem
      exact congrArg Nodes.GetLinkResponse.link (envelopes_unique henv (hbody ▸ hparent))
    locked := fun hne => absurd hroot hne
    created := by
      intro volumeId req file hposted
      obtain ⟨hfile, hp, hk, hpp, hpk⟩ := roundUpload_created hposted
      exact ⟨hfile, by rw [hp]; exact hup, by rw [hk]; exact hkey, by rw [hpp]; exact hpass,
        by rw [hpk]; exact hpacket⟩
    type := htype
    fileProperties := hprops
    activeRevision := hactive
    revisionId := hid
    linked := fun body resp links hmem henv => roundUpload_linked hmem henv
    labels := List.Perm.refl _
    distinct := List.nodup_singleton _
    committed := by
      intro path req ans hmem
      obtain ⟨hm, hx, ha⟩ := roundUpload_committed hmem
      exact ⟨by rw [hm]; exact hmanifest, by rw [hx]; exact hxattr, by rw [ha]; exact hemail⟩
    blocks := by
      show (revision.blocks.map _).Perm ((storedBlocks [roundLink] roundUpload.1).map _)
      rw [hblocks, hstored]
      exact List.Perm.refl _ }
  have hserves : s.Serves roundCrates smallUploader roundUpload.1 roundServer.serve := {
    share := fun h => ⟨_, rfl, hshare⟩
    parent := fun h => ⟨_, rfl, hparent⟩
    link := fun h => ⟨_, rfl, hlink⟩
    revision := by
      intro h
      refine ⟨_, rfl, ?_⟩
      show roundCrates.Envelopes _ (roundServer.json .get (commitPath share.volumeId "file" "rev")) _
      rw [hvolume]
      exact hrevision
    block := by
      intro h b hb c hc
      refine ⟨_, rfl, ?_⟩
      have hc : (b.index, c) ∈ storedBlocks [roundLink] roundUpload.1 := hc
      rw [hstored] at hc
      exact (Prod.mk.inj (List.mem_singleton.mp hc)).2.symm
    write := fun _ _ => rfl
    flush := fun _ => rfl }
  have hpubs : ∀ key,
      smallUploader.account.addressPrivateKey smallUploader.account.primaryEmail = .ok key →
      ∃ keys pub, smallClient.account.addressPublicKeys smallUploader.account.primaryEmail = .ok keys ∧
        pub ∈ keys ∧ sameFingerprint key pub :=
    fun key hkey => ⟨_, _, rfl, List.mem_singleton.mpr rfl, by cases hkey; rfl⟩
  obtain ⟨tr', stats, hy, hw, hverified, _⟩ := upload_download transparent_ideal
    (Script.play_runs (R := roundUpload) rfl hok) hkeeps rfl rfl hpubs hserves []
  exact ⟨tr', stats, hy, hw, hverified⟩

end ProtonDrive
