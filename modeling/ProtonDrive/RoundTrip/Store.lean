import Mathlib.Algebra.BigOperators.Group.List.Basic
import ProtonDrive.Core.Served
import ProtonDrive.Upload.Commit
import ProtonDrive.Upload.Links

/-!
# What a server keeps of an upload

An upload returned `Ok` with the trace `tr`.  An honest server keeps what it was given:

* `storedBlocks`      the ciphertexts of the posts, each under the label of the link it was posted to;
* `Store`, `Keeps`    the records of the server, and that they are made of the requests in `tr`;
* `Serves`            the server answers a download from these records, in any order of the blocks, and
                      nothing fails on the side of the writer;
* `Readable`          the records open, one key after the other, from the address key down to the bytes
                      of the file (`Store.Keeps.readable`).
-/

set_option linter.unusedVariables false

namespace ProtonDrive
open Encoding Effects Api

/-! ## what the server keeps -/

/-- a multipart body without what stands before and after the ciphertext -/
def unframed (body : Bytes) : Bytes :=
  (body.drop framingHead.length).take (body.length - framingHead.length - framingTail.length)

theorem unframed_framed (c : Bytes) : unframed (framingHead ++ c ++ framingTail) = c := by
  have hdrop : (framingHead ++ c ++ framingTail).drop framingHead.length = c ++ framingTail := by
    rw [List.append_assoc]
    exact List.drop_left
  have hlen : (framingHead ++ c ++ framingTail).length - framingHead.length - framingTail.length =
      c.length := by
    simp only [List.length_append]
    omega
  unfold unframed
  rw [hdrop, hlen]
  exact List.take_left

/-- the label of the link a ciphertext was posted to -/
def labelOf (links : List Upload.UploadLink) (req : BlobRequest) : Option Nat :=
  (links.find? fun l => l.bareUrl = req.path ∧ ("pm-storage-token", l.token) ∈ req.headers).map
    (·.index)

def storedBlock (links : List Upload.UploadLink)
    (post : BlobRequest × Except Error JsonResponse) : Option (Nat × Bytes) :=
  (labelOf links post.1).map fun label => (label, unframed post.1.body)

def storedBlocks (links : List Upload.UploadLink) (tr : Trace host) : List (Nat × Bytes) :=
  (blobs tr).filterMap (storedBlock links)

/-- the records of a server about a share, a folder in it, and a file that was uploaded there -/
structure Store where
  share : Shares.Share
  parent : Nodes.Link
  file : Upload.CreatedFile
  link : Nodes.Link
  contents : Nodes.FileProperties
  active : Nodes.Revision
  links : List Upload.UploadLink
  revision : Download.RevisionWithBlocks

section
variable (K : Crates) (up : ProtonFileUploader) (tr : Trace host)

/-- the records are made of what the upload sent, and of what it was answered -/
structure Store.Keeps (s : Store) : Prop where
  /-- the share and the folder do not change -/
  share : ∀ share, Fetched K tr Shares.GetShareResponse.ofJson (sharePath up.parent.volumeId) ⟨share⟩ →
    share = s.share
  parent : ∀ link, Fetched K tr Nodes.GetLinkResponse.ofJson
    (shareLinkPath up.parent.volumeId up.parent.nodeId) ⟨link⟩ → link = s.parent
  /-- a folder below another is locked with the key of that one, not with the key of the share -/
  locked : s.parent.parentLinkId ≠ none → ∀ addressKey shareKey,
    decryptShareKey K up.openpgp s.share.key s.share.passphrase addressKey = .ok shareKey →
      ∀ key, decryptNodePrivateKey K up.openpgp s.parent.nodeKey s.parent.nodePassphrase shareKey ≠
        .ok key
  created : ∀ volumeId req file, Posted K tr Upload.CreateFileResponse.ofJson (filesPath volumeId)
    (Upload.CreateFileRequest.toJson req) ⟨file⟩ →
      file = s.file ∧ s.link.parentLinkId = some req.parentLinkId ∧ s.link.nodeKey = req.nodeKey ∧
      s.link.nodePassphrase = req.nodePassphrase ∧
      s.contents.contentKeyPacket = some req.contentKeyPacket
  type : s.link.type = 2
  fileProperties : s.link.fileProperties = some s.contents
  activeRevision : s.contents.activeRevision = some s.active
  revisionId : s.active.id = s.file.revisionId
  linked : ∀ body resp links, (body, .ok resp) ∈ posts blocksPath tr →
    K.Envelopes Upload.RequestBlockUploadResponse.ofJson resp.body ⟨links⟩ → links = s.links
  /-- the links are labelled `1..n`, and tell the posts apart -/
  labels : Labelled s.links s.links.length
  distinct : (s.links.map fun l => (l.bareUrl, l.token)).Nodup
  committed : ∀ path req ans,
    ⟨.requestJson (.bare .put path (some (Upload.CommitRevisionRequest.toJson req))), ans⟩ ∈ tr →
      s.revision.manifestSignature = some req.manifestSignature ∧
      s.revision.xAttr = some req.xAttr ∧ s.active.signatureEmail = some req.signatureAddress
  /-- the blocks are listed in any order, each with the hash of its ciphertext -/
  blocks : (s.revision.blocks.map fun b => (b.index, b.hash)).Perm
    ((storedBlocks s.links tr).map fun p => (p.1, Base64.encode (K.sha256 p.2).1))

/-- the server answers from its records, and the writer takes everything -/
structure Store.Serves (s : Store) (serve : Trace host → (c : HostCall) → c.Ans) : Prop where
  share : ∀ h, Answered K Shares.GetShareResponse.ofJson
    (serve h (.requestJson (.bare .get (sharePath up.parent.volumeId) none))) ⟨s.share⟩
  parent : ∀ h, Answered K Nodes.GetLinkResponse.ofJson (serve h (.requestJson
    (.bare .get (shareLinkPath up.parent.volumeId up.parent.nodeId) none))) ⟨s.parent⟩
  link : ∀ h, Answered K Nodes.GetLinkResponse.ofJson (serve h (.requestJson
    (.bare .get (shareLinkPath up.parent.volumeId s.file.linkId) none))) ⟨s.link⟩
  revision : ∀ h, Answered K Download.GetRevisionResponse.ofJson (serve h (.requestJson
    (.bare .get (commitPath s.share.volumeId s.file.linkId s.file.revisionId) none))) ⟨s.revision⟩
  block : ∀ h, ∀ b ∈ s.revision.blocks, ∀ c, (b.index, c) ∈ storedBlocks s.links tr →
    ∃ resp, serve h (.requestBlob (blockGet b)) = .ok resp ∧ resp.body = c
  write : ∀ h data, serve h (.writeAll data) = .ok ()
  flush : ∀ h, serve h .flush = .ok ()

end

/-! ## what was kept of the blocks -/

section
variable {K : Crates} {up : ProtonFileUploader} {fuel : Nat} {tr : Trace host} {s : Store}

theorem labelOf_post {links : List Upload.UploadLink} {link : Upload.UploadLink} {b : EncryptedBlock K}
    (hmem : link ∈ links) (hdistinct : (links.map fun l => (l.bareUrl, l.token)).Nodup) :
    labelOf links (blockPost (b, link)) = some link.index := by
  have hmatch : ∀ l : Upload.UploadLink, (decide (l.bareUrl = (blockPost (b, link)).path ∧
      ("pm-storage-token", l.token) ∈ (blockPost (b, link)).headers)) = true →
        (l.bareUrl, l.token) = (link.bareUrl, link.token) := by
    intro l hl
    obtain ⟨hpath, htoken⟩ := of_decide_eq_true hl
    have hpath : l.bareUrl = link.bareUrl := hpath
    have htoken : ("pm-storage-token", l.token) ∈ [("pm-storage-token", link.token),
        ("content-type", "multipart/form-data; boundary=" ++ boundary)] := htoken
    rcases List.mem_cons.mp htoken with htoken | htoken
    · rw [hpath, (Prod.mk.inj htoken).2]
    · have hname := (Prod.mk.inj (List.mem_singleton.mp htoken)).1
      exact absurd hname (by decide)
  unfold labelOf
  cases hfind : links.find? fun l => decide (l.bareUrl = (blockPost (b, link)).path ∧
      ("pm-storage-token", l.token) ∈ (blockPost (b, link)).headers) with
  | none =>
    have hno := List.find?_eq_none.mp hfind link hmem
    refine absurd ?_ hno
    exact decide_eq_true ⟨rfl, List.mem_cons_self⟩
  | some l =>
    have hsame := List.find?_some hfind
    have hl := hmatch l hsame
    rw [List.inj_on_of_nodup_map hdistinct (List.mem_of_find?_eq_some hfind) hmem hl]
    rfl

/-- posts to links labelled like their blocks are kept under the indices of the blocks -/
theorem storedBlocks_posts {links : List Upload.UploadLink}
    {pairs : List (EncryptedBlock K × Upload.UploadLink)}
    {posted : List (BlobRequest × Except Error JsonResponse)}
    (hdistinct : (links.map fun l => (l.bareUrl, l.token)).Nodup)
    (hlinks : ∀ pair ∈ pairs, pair.2 ∈ links) (hlabels : ∀ pair ∈ pairs, pair.1.index = pair.2.index)
    (h : List.Forall₂ Accepted pairs posted) :
    posted.filterMap (storedBlock links) = pairs.map fun pair => (pair.1.index, pair.1.ciphertext) := by
  induction h with
  | nil => rfl
  | @cons pair post pairs posted haccepted _ ih =>
    have hstored : storedBlock links post = some (pair.1.index, pair.1.ciphertext) := by
      unfold storedBlock
      rw [haccepted.1, labelOf_post (hlinks pair List.mem_cons_self) hdistinct,
        hlabels pair List.mem_cons_self]
      exact congrArg (fun c => some (pair.2.index, c)) (unframed_framed _)
    rw [List.filterMap_cons, hstored, List.map_cons,
      ih (fun p hp => hlinks p (List.mem_cons_of_mem _ hp))
        (fun p hp => hlabels p (List.mem_cons_of_mem _ hp))]

theorem zip_map_fst {α β γ : Type} {f : α → γ} {l : List α} {m : List β} (h : l.length = m.length) :
    ((l.zip m).map fun p => f p.1) = l.map f := by
  have hfst : (l.zip m).map Prod.fst = l := List.map_fst_zip (Nat.le_of_eq h)
  conv_rhs => rw [← hfst, List.map_map]
  rfl

/-- the rest of the run after the commit point posts nothing -/
theorem commit_only {p : CommitPoint K up fuel} {post : Trace host}
    {o : Outcome (Except Fault Unit)} (h : Runs p.commit.run post o) (A : HostCall → Prop)
    (hput : ∀ path body, A (.requestJson (.bare .put path body)))
    (hprogress : ∀ n, A (.sendProgress n)) : ∀ e ∈ post, A e.call :=
  h.only (only_commitRevision hput hprogress)

/-! ## what a download needs -/

/-- the records open, one key after the other, from the address key down to `content` -/
structure Readable (K : Crates) (P : OpenPgpCrypto) (pair : PrivateKey → PublicKey → Prop)
    (parentId email : String) (stored : List (Nat × Bytes)) (s : Store) (addressPriv : PrivateKey)
    (content : Bytes) where
  sharePriv : PrivateKey
  parentPriv : PrivateKey
  nodePriv : PrivateKey
  sessionKey : SessionKey
  packet : Bytes
  plaintexts : List Bytes
  signature : Bytes
  coins : Coins
  shareUnlocked : decryptShareKey K P s.share.key s.share.passphrase addressPriv = .ok sharePriv
  parentUnlocked : decryptNodePrivateKey K P s.parent.nodeKey s.parent.nodePassphrase sharePriv =
    .ok parentPriv
  root : s.parent.parentLinkId = none
  linkParent : s.link.parentLinkId = some parentId
  nodeUnlocked : decryptNodePrivateKey K P s.link.nodeKey s.link.nodePassphrase parentPriv =
    .ok nodePriv
  packetKept : s.contents.contentKeyPacket = some (Base64.encode packet)
  packetOpens : P.decryptSessionKey packet [nodePriv] = .ok sessionKey
  numbered : (stored.map Prod.fst).Pairwise (· < ·)
  nonempty : stored ≠ []
  opens : List.Forall₂ (fun plain p => ∃ status,
    P.decryptAndVerify p.2 sessionKey [] = .ok (plain, status)) plaintexts stored
  filled : ∀ plain ∈ plaintexts, plain ≠ []
  flatten : plaintexts.flatten = content
  signed : P.sign (stored.flatMap fun p => (K.sha256 p.2).1) addressPriv "" coins = .ok signature
  manifest : s.revision.manifestSignature = some (armor signature .signature)
  email : s.active.signatureEmail = some email

/-- no block is empty, so there are no more blocks than bytes -/
theorem Readable.count_le {P : OpenPgpCrypto} {pair : PrivateKey → PublicKey → Prop}
    {parentId email : String} {stored : List (Nat × Bytes)} {addressPriv : PrivateKey} {content : Bytes}
    (r : Readable K P pair parentId email stored s addressPriv content) :
    stored.length ≤ content.length := by
  have hlengths : ∀ n ∈ r.plaintexts.map List.length, 1 ≤ n := by
    intro n hn
    obtain ⟨plain, hplain, rfl⟩ := List.mem_map.mp hn
    exact List.length_pos_of_ne_nil (r.filled plain hplain)
  have hsum := List.length_le_sum_of_one_le _ hlengths
  rw [List.length_map, ← List.length_flatten, r.flatten, r.opens.length_eq] at hsum
  exact hsum

theorem sealed_opens {pair : PrivateKey → PublicKey → Prop} (ideal : IdealCrypto up.openpgp pair)
    {d : Draft} {plaintexts : List Bytes} {blocks : List (EncryptedBlock K)}
    (h : List.Forall₂ (Sealed up d) plaintexts blocks) :
    List.Forall₂ (fun plain p => ∃ status,
      up.openpgp.decryptAndVerify p.2 d.contentSessionKey [] = .ok (plain, status)) plaintexts
      (blocks.map fun b => (b.index, b.ciphertext)) := by
  induction h with
  | nil => exact .nil
  | cons hsealed _ ih =>
    obtain ⟨c, henc⟩ := hsealed
    exact .cons (ideal.decrypt henc) ih

/-- the posts of an upload were kept under the numbers of their blocks -/
theorem Store.Keeps.stored_eq (hkeeps : s.Keeps K up tr) (p : CommitPoint K up fuel)
    (hblobs : blobs tr = blobs p.trace) (hposts : posts blocksPath tr = posts blocksPath p.trace) :
    storedBlocks s.links tr = p.chunks.blocks.map fun b => (b.index, b.ciphertext) := by
  obtain ⟨l⟩ := p.linksOrigin
  have hasked : (some (blockUploadRequest K p.draft l.addressId p.chunks.blocks).toJson,
      Except.ok l.resp) ∈ posts blocksPath tr := by
    rw [hposts, l.asked]
    exact List.mem_singleton.mpr rfl
  have hlinks : l.links = s.links := hkeeps.linked _ l.resp l.links hasked l.answered
  have hlabels : Labelled s.links p.chunks.blocks.length := by
    rw [← l.count, hlinks]
    exact hkeeps.labels
  have hsorted : p.sorted = Sorting.sortByKey (·.index) s.links := by rw [l.sorted_eq, hlinks]
  have haccepted := p.accepted
  rw [hsorted] at haccepted
  unfold storedBlocks
  rw [hblobs, storedBlocks_posts hkeeps.distinct ?_ (pairs_index hlabels) haccepted]
  · refine zip_map_fst (f := fun b : EncryptedBlock K => (b.index, b.ciphertext)) ?_
    rw [Sorting.length_sortByKey, ← hlinks, l.count]
  · intro pair hpair
    exact (Sorting.mem_sortByKey _).mp (List.of_mem_zip hpair).2

theorem Store.Keeps.readable {pair : PrivateKey → PublicKey → Prop}
    (ideal : IdealCrypto up.openpgp pair) (hkeeps : s.Keeps K up tr)
    (h : Runs (runUpload K up fuel).run tr (.done (.ok ()))) :
    ∃ addressPriv, up.account.addressPrivateKey up.account.primaryEmail = .ok addressPriv ∧
      Nonempty (Readable K up.openpgp pair up.parent.nodeId up.account.primaryEmail
        (storedBlocks s.links tr) s addressPriv (delivered tr)) := by
  obtain ⟨p, post, rfl, hcommit⟩ := runUpload_ok h
  have hsub : p.trace ⊆ p.trace ++ post := List.subset_append_left _ _
  have hblobs : blobs (p.trace ++ post) = blobs p.trace := by
    rw [blobs_append, blobs_eq_nil (commit_only hcommit (isBlob · = false) (fun _ _ => rfl)
      fun _ => rfl), List.append_nil]
  have hposts : posts blocksPath (p.trace ++ post) = posts blocksPath p.trace := by
    rw [posts_append, posts_eq_nil (commit_only hcommit (isPostTo blocksPath · = false)
      (fun _ _ => rfl) fun _ => rfl), List.append_nil]
  have hdelivered : delivered (p.trace ++ post) = delivered p.reading := by
    rw [delivered_append, delivered_eq_nil (commit_only hcommit (isRead · = false)
      (fun _ _ => rfl) fun _ => rfl), List.append_nil, p.delivered_eq]
  have hstored := hkeeps.stored_eq p hblobs hposts
  obtain ⟨o⟩ := p.draftOrigin
  obtain ⟨l⟩ := p.linksOrigin
  obtain ⟨c⟩ := p.commitOrigin
  obtain ⟨plaintexts, hread⟩ := p.readOff
  obtain ⟨new, hnew, hsealed⟩ := hread.blocks
  have hnew : p.chunks.blocks = new := hnew
  have n := o.origin
  have hshare := hkeeps.share _ (n.parent.shareFetched.mono hsub)
  have hparent := hkeeps.parent _ (n.parent.linkFetched.mono hsub)
  have hshareUnlocked := n.parent.shareUnlocked
  have hparentUnlocked := n.parent.parentUnlocked
  rw [hshare] at hshareUnlocked
  rw [hparent] at hparentUnlocked
  obtain ⟨_, hlinkParent, hnodeKey, hpassphrase, hpacket⟩ :=
    hkeeps.created _ _ _ (o.created.mono hsub)
  have hput : ∃ ans, ⟨.requestJson (commitPut p.draft p.request), ans⟩ ∈ p.trace ++ post := by
    rcases commitRevision_inv hcommit with ⟨_, hstop⟩ | ⟨ans, rest, rfl, _⟩
    · cases hstop
    · exact ⟨ans, List.mem_append_right _ List.mem_cons_self⟩
  obtain ⟨ans, hput⟩ := hput
  obtain ⟨hmanifest, _, hemail⟩ := hkeeps.committed _ _ ans hput
  refine ⟨o.node.addressPriv, n.address, ⟨{
    sharePriv := n.parent.sharePriv
    parentPriv := n.parentPriv
    nodePriv := n.nodePriv
    sessionKey := p.draft.contentSessionKey
    packet := n.packet
    plaintexts := plaintexts
    signature := c.signature
    coins := c.signCoins
    shareUnlocked := hshareUnlocked
    parentUnlocked := hparentUnlocked
    root := ?_
    linkParent := by rw [hlinkParent, n.reqParent]
    nodeUnlocked := ?_
    packetKept := by rw [hpacket, n.reqPacket]
    packetOpens := ?_
    numbered := ?_
    nonempty := ?_
    opens := ?_
    filled := hread.filled
    flatten := by rw [hread.stream, hdelivered]
    signed := ?_
    manifest := by rw [hmanifest, c.manifest]
    email := by rw [hemail, c.address, o.addressEmail, n.email] }⟩⟩
  · by_contra hroot
    exact hkeeps.locked hroot _ _ hshareUnlocked _ hparentUnlocked
  · rw [hnodeKey, hpassphrase, n.reqKey, n.reqPassphrase]
    exact unlockKey_sealed ideal n.passphraseSeal (List.mem_singleton.mpr rfl)
      (ideal.publicKey_pair n.parentPublic) (ideal.unlock n.generated)
  · rw [o.contentSessionKey]
    refine ideal.unwrap n.packetMade (List.mem_singleton.mpr rfl) ?_
    rw [n.nodePub]
    exact ideal.generateKey_pair n.generated
  · have hnumbers : (storedBlocks s.links (p.trace ++ post)).map Prod.fst =
        List.range' 1 p.chunks.blocks.length := by
      rw [hstored, List.map_map]
      exact p.chunks.numbered
    rw [hnumbers]
    exact List.pairwise_lt_range' ..
  · rw [hstored]
    intro hnil
    exact l.nonempty (List.map_eq_nil_iff.mp hnil)
  · rw [hstored, hnew]
    exact sealed_opens ideal hsealed
  · rw [hstored, List.flatMap_map, ← o.addressPriv]
    have hpayload := manifestPayload_eq p.chunks.blocks
    unfold digests at hpayload
    rw [← hpayload]
    exact c.signed

end

end ProtonDrive
