import ProtonDrive.Core.Traces
import ProtonDrive.Core.Upload

/-!
# The steps of an upload, one specification each

* `within_…`    the calls a step can make, and how it can fail: the draft is made with `GET`s and one
                `POST`, the blocks with reads, the links with one `POST`, the posts are the only
                blob requests, only the commit makes a `PUT`, and only the two probed `POST`s can
                panic;
* `only_…`      the calls alone;
* `…_ok`        what a step that returned has done.
-/

set_option linter.unusedVariables false

namespace ProtonDrive
open Encoding Effects Api

/-- the blob request of a block and a link -/
def blockPost {K : Crates} (pair : EncryptedBlock K × Upload.UploadLink) : BlobRequest :=
  blockRequest pair.2.bareUrl pair.2.token pair.1.ciphertext

/-! ## the calls and faults of each step -/

section
variable {A : HostCall → Prop} {Q : Fault → Prop} {K : Crates} {up : ProtonFileUploader}

theorem within_resolveVolumeId (hQ : ∀ e, Q (.error e)) {shareId : String}
    (hget : ∀ path, A (.requestJson (.bare .get path none))) :
    Within (S := host) A Q (resolveVolumeId K shareId) :=
  Within.bind (within_getJson hQ (hget _)) fun _ => Within.pure _

theorem within_resolveParentContext (hQ : ∀ e, Q (.error e)) {shareId : String}
    (hget : ∀ path, A (.requestJson (.bare .get path none))) :
    Within (S := host) A Q (resolveParentContext K up shareId) := by
  refine Within.bind (within_getJson hQ (hget _)) fun _ => ?_
  refine Within.bind (within_ofExcept hQ _ _) fun _ => ?_
  refine Within.bind (within_ofExcept hQ _ _) fun _ => ?_
  refine Within.bind (within_getJson hQ (hget _)) fun _ => ?_
  refine Within.bind (within_ofExcept hQ _ _) fun _ => ?_
  refine Within.bind (within_ofExcept hQ _ _) fun _ => ?_
  refine Within.bind (within_ofExcept hQ _ _) fun _ => ?_
  refine Within.bind (within_ofExcept hQ _ _) fun _ => ?_
  exact Within.pure _

theorem within_generateNode (hQ : ∀ e, Q (.error e))
    (hget : ∀ path, A (.requestJson (.bare .get path none))) (hcoins : A .coins) :
    Within (S := host) A Q (generateNode K up) := by
  refine Within.bind (within_resolveVolumeId hQ hget) fun _ => ?_
  refine Within.bind (within_ofExcept hQ _ _) fun _ => ?_
  refine Within.bind (within_call hcoins) fun _ => ?_
  refine Within.bind (within_random hQ hcoins _) fun _ => ?_
  refine Within.bind (within_resolveParentContext hQ hget) fun _ => ?_
  refine Within.bind (within_ofExcept hQ _ _) fun _ => ?_
  refine Within.bind (within_random hQ hcoins _) fun _ => ?_
  refine Within.bind (within_random hQ hcoins _) fun _ => ?_
  refine Within.bind (within_random hQ hcoins _) fun _ => ?_
  refine Within.bind (within_random hQ hcoins _) fun _ => ?_
  refine Within.bind (within_random hQ hcoins _) fun _ => ?_
  refine Within.bind (within_random hQ hcoins _) fun _ => ?_
  refine Within.bind (within_random hQ hcoins _) fun _ => ?_
  refine Within.bind (within_random hQ hcoins _) fun _ => ?_
  refine Within.bind (within_ofExcept hQ _ _) fun _ => ?_
  exact Within.pure _

theorem within_getVerificationCode (hQ : ∀ e, Q (.error e)) {v l r : String}
    (hget : ∀ path, A (.requestJson (.bare .get path none))) :
    Within (S := host) A Q (getVerificationCode K v l r) := by
  refine Within.bind (within_getJson hQ (hget _)) fun resp => ?_
  cases Base64.decode resp.verificationCode with
  | some code => exact Within.pure _
  | none => exact within_fail hQ _

theorem within_createDraft (hQ : ∀ f, Q f)
    (hget : ∀ path, A (.requestJson (.bare .get path none)))
    (hpost : ∀ v body, A (.requestJson (.bare .post (filesPath v) (some body))))
    (hcoins : A .coins) : Within (S := host) A Q (createDraft K up) := by
  refine Within.bind (within_generateNode (fun _ => hQ _) hget hcoins) fun node => ?_
  refine Within.bind (Within.bind (within_postProbed hQ (hpost _ _)) fun _ => Within.pure _)
    fun _ => ?_
  refine Within.bind (within_getVerificationCode (fun _ => hQ _) hget) fun _ => ?_
  exact Within.pure _

theorem within_fillBuffer (hQ : ∀ e, Q (.error e)) (hread : ∀ cap, A (.read cap)) :
    ∀ fuel remaining buf, Within (S := host) A Q (fillBuffer fuel remaining buf) := by
  intro fuel
  induction fuel with
  | zero => exact fun _ _ => Within.pure _
  | succ fuel ih =>
    intro remaining buf
    refine Within.bind (within_call (hread _)) fun r => ?_
    match r with
    | .error e => exact within_fail hQ _
    | .ok ⟨bs, _⟩ =>
      show Within (S := host) A Q (if bs = [] then _ else _)
      split
      · exact Within.pure _
      · split
        · exact Within.pure _
        · exact ih _ _

theorem within_encryptBlock (hQ : ∀ e, Q (.error e)) {d : Draft} {plaintext : Bytes}
    (hcoins : A .coins) :
    Within (S := host) A Q (encryptBlock up d plaintext) := by
  refine Within.bind (within_random hQ hcoins _) fun _ => ?_
  refine Within.bind (within_random hQ hcoins _) fun _ => ?_
  refine Within.bind (within_random hQ hcoins _) fun _ => ?_
  exact Within.pure _

theorem within_readBlocks (hQ : ∀ e, Q (.error e)) {d : Draft}
    (hread : ∀ cap, A (.read cap)) (hcoins : A .coins) (hcancel : A (.isCancelled .upload))
    (hprogress : ∀ n, A (.sendProgress n)) :
    ∀ fuel s, Within (S := host) A Q (readBlocks K up d fuel s) := by
  intro fuel
  induction fuel with
  | zero => exact fun _ => ⟨trivial, trivial⟩
  | succ fuel ih =>
    intro s
    refine Within.bind (within_call hcancel) fun _ => ?_
    refine Within.bind (within_require hQ _ _) fun _ => ?_
    refine Within.bind (within_fillBuffer hQ hread _ _ _) fun plaintext => ?_
    show Within (S := host) A Q (if plaintext = [] then _ else _)
    split
    · exact Within.pure _
    · refine Within.bind (within_encryptBlock hQ hcoins) fun b => ?_
      refine Within.bind (within_call (hprogress _)) fun _ => ?_
      show Within (S := host) A Q (if plaintext.length < BLOCK_SIZE then _ else _)
      split
      · exact Within.pure _
      · exact ih _

theorem within_postRequestBlocks (hQ : ∀ f, Q f) {req : Upload.RequestBlockUploadRequest}
    (hpost : A (.requestJson (.bare .post blocksPath (some req.toJson)))) :
    Within (S := host) A Q (postRequestBlocks K req) :=
  Within.bind (within_postProbed hQ hpost) fun _ => Within.pure _

theorem within_requestBlocks (hQ : ∀ f, Q f) {d : Draft} {s : Chunks K}
    (hpost : ∀ body, A (.requestJson (.bare .post blocksPath (some body)))) :
    Within (S := host) A Q (requestBlocks K up d s) := by
  refine Within.bind (within_require (fun _ => hQ _) _ _) fun _ => ?_
  refine Within.bind (within_require (fun _ => hQ _) _ _) fun _ => ?_
  refine Within.bind (within_ofExcept (fun _ => hQ _) _ _) fun _ => ?_
  refine Within.bind (within_postRequestBlocks hQ (hpost _)) fun _ => ?_
  refine Within.bind (within_require (fun _ => hQ _) _ _) fun _ => ?_
  exact Within.pure _

theorem within_putBlocks (hQ : ∀ e, Q (.error e)) (hcancel : A (.isCancelled .upload))
    {pairs : List (EncryptedBlock K × Upload.UploadLink)}
    (hblob : ∀ pair ∈ pairs, A (.requestBlob (blockPost pair))) :
    Within (S := host) A Q (putBlocks K pairs) := by
  induction pairs with
  | nil => exact Within.pure _
  | cons pair rest ih =>
    refine Within.bind (within_call hcancel) fun _ => ?_
    refine Within.bind (within_require hQ _ _) fun _ => ?_
    refine Within.bind (Within.bind (within_requestBlob hQ (hblob pair List.mem_cons_self))
      fun _ => within_require hQ _ _) fun _ => ?_
    exact ih fun pair hp => hblob pair (List.mem_cons_of_mem _ hp)

theorem within_commitRequest (hQ : ∀ e, Q (.error e)) {d : Draft} {s : Chunks K}
    (hcoins : A .coins) : Within (S := host) A Q (commitRequest K up d s) := by
  refine Within.bind (within_random hQ hcoins _) fun _ => ?_
  refine Within.bind (within_random hQ hcoins _) fun _ => ?_
  refine Within.bind (within_random hQ hcoins _) fun _ => ?_
  exact Within.pure _

theorem within_commitRevision (hQ : ∀ e, Q (.error e)) {d : Draft} {total : Nat}
    {req : Upload.CommitRevisionRequest} (hput : ∀ path body, A (.requestJson (.bare .put path body)))
    (hprogress : ∀ n, A (.sendProgress n)) :
    Within (S := host) A Q (commitRevision K d total req) := by
  refine Within.bind ?_ fun _ => within_call (hprogress _)
  refine Within.bind (within_requestJson hQ (hput _ _)) fun _ => ?_
  refine Within.bind (within_ofExcept hQ _ _) fun _ => ?_
  exact within_require hQ _ _

end

/-! ## the calls of each step alone -/

section
variable {A : host.Call → Prop} {K : Crates} {up : ProtonFileUploader} {d : Draft} {s : Chunks K}

theorem only_createDraft (hget : ∀ path, A (.requestJson (.bare .get path none)))
    (hpost : ∀ v body, A (.requestJson (.bare .post (filesPath v) (some body))))
    (hcoins : A .coins) : Only A (createDraft K up).run :=
  (within_createDraft (Q := fun _ => True) (fun _ => trivial) hget hpost hcoins).1

theorem only_fillBuffer (hread : ∀ cap, A (.read cap)) (fuel remaining : Nat) (buf : Bytes) :
    Only A (fillBuffer fuel remaining buf).run :=
  (within_fillBuffer (Q := fun _ => True) (fun _ => trivial) hread fuel remaining buf).1

theorem only_encryptBlock {plaintext : Bytes} (hcoins : A .coins) :
    Only A (encryptBlock up d plaintext).run :=
  (within_encryptBlock (Q := fun _ => True) (fun _ => trivial) hcoins).1

theorem only_readBlocks (hread : ∀ cap, A (.read cap)) (hcoins : A .coins)
    (hcancel : A (.isCancelled .upload)) (hprogress : ∀ n, A (.sendProgress n)) (fuel : Nat)
    (s : Chunks K) : Only A (readBlocks K up d fuel s).run :=
  (within_readBlocks (Q := fun _ => True) (fun _ => trivial) hread hcoins hcancel hprogress fuel s).1

theorem only_requestBlocks (hpost : ∀ body, A (.requestJson (.bare .post blocksPath (some body)))) :
    Only A (requestBlocks K up d s).run :=
  (within_requestBlocks (Q := fun _ => True) (fun _ => trivial) hpost).1

theorem only_putBlocks (hcancel : A (.isCancelled .upload))
    {pairs : List (EncryptedBlock K × Upload.UploadLink)}
    (hblob : ∀ pair ∈ pairs, A (.requestBlob (blockPost pair))) :
    Only A (putBlocks K pairs).run :=
  (within_putBlocks (Q := fun _ => True) (fun _ => trivial) hcancel hblob).1

theorem only_commitRequest (hcoins : A .coins) : Only A (commitRequest K up d s).run :=
  (within_commitRequest (Q := fun _ => True) (fun _ => trivial) hcoins).1

theorem only_commitRevision {total : Nat} {req : Upload.CommitRevisionRequest}
    (hput : ∀ path body, A (.requestJson (.bare .put path body)))
    (hprogress : ∀ n, A (.sendProgress n)) : Only A (commitRevision K d total req).run :=
  (within_commitRevision (Q := fun _ => True) (fun _ => trivial) hput hprogress).1

end

/-! ## what the steps have done -/

section
variable {K : Crates} {up : ProtonFileUploader} {tr : Trace host}

/-- the trace has a `GET path` answered by the record `a` -/
def Fetched (K : Crates) (tr : Trace host) {α : Type} (dec : Json → Option α) (path : String)
    (a : α) : Prop :=
  ∃ resp, ⟨.requestJson (.bare .get path none), .ok resp⟩ ∈ tr ∧ K.Envelopes dec resp.body a

theorem Fetched.mono {α : Type} {dec : Json → Option α} {path : String} {a : α}
    {tr' : Trace host} (h : Fetched K tr dec path a) (hs : tr ⊆ tr') :
    Fetched K tr' dec path a := by
  obtain ⟨resp, hm, he⟩ := h
  exact ⟨resp, hs hm, he⟩

theorem getJson_fetched {α : Type} {what type path : String} {dec : Json → Option α} {a : α}
    (h : Runs (getJson K what type dec path).run tr (.done (.ok a))) : Fetched K tr dec path a := by
  obtain ⟨resp, rfl, he⟩ := getJson_ok h
  exact ⟨resp, List.mem_singleton.mpr rfl, he⟩

def sharePath (shareId : String) : String := "/drive/shares/" ++ shareId
def shareLinkPath (shareId linkId : String) : String :=
  "/drive/shares/" ++ shareId ++ "/links/" ++ linkId

/-- where the keys of the parent come from -/
structure ParentOrigin (K : Crates) (up : ProtonFileUploader) (tr : Trace host)
    (addressPriv parentPriv : PrivateKey) where
  share : Shares.Share
  link : Nodes.Link
  sharePriv : PrivateKey
  shareFetched : Fetched K tr Shares.GetShareResponse.ofJson (sharePath up.parent.volumeId) ⟨share⟩
  linkFetched : Fetched K tr Nodes.GetLinkResponse.ofJson
    (shareLinkPath up.parent.volumeId up.parent.nodeId) ⟨link⟩
  shareUnlocked : decryptShareKey K up.openpgp share.key share.passphrase addressPriv =
    .ok sharePriv
  parentUnlocked : decryptNodePrivateKey K up.openpgp link.nodeKey link.nodePassphrase sharePriv =
    .ok parentPriv

def ParentOrigin.mono {addressPriv parentPriv : PrivateKey} {tr' : Trace host}
    (o : ParentOrigin K up tr addressPriv parentPriv) (hs : tr ⊆ tr') :
    ParentOrigin K up tr' addressPriv parentPriv :=
  { o with shareFetched := o.shareFetched.mono hs, linkFetched := o.linkFetched.mono hs }

theorem resolveParentContext_ok {parentPriv addressPriv : PrivateKey} {hashKey : Bytes}
    (haddr : up.account.addressPrivateKey up.account.primaryEmail = .ok addressPriv)
    (h : Runs (resolveParentContext K up up.parent.volumeId).run tr
      (.done (.ok (parentPriv, hashKey)))) :
    Nonempty (ParentOrigin K up tr addressPriv parentPriv) := by
  obtain ⟨⟨share⟩, t₁, u₁, rfl, h₁, h⟩ := h.bindE_ok
  obtain ⟨priv, t₂, u₂, rfl, h₂, h⟩ := h.bindE_ok
  obtain ⟨sharePriv, t₃, u₃, rfl, h₃, h⟩ := h.bindE_ok
  obtain ⟨⟨link⟩, t₄, u₄, rfl, h₄, h⟩ := h.bindE_ok
  obtain ⟨nodePriv, t₅, u₅, rfl, h₅, h⟩ := h.bindE_ok
  obtain ⟨_, t₆, u₆, rfl, _, h⟩ := h.bindE_ok
  obtain ⟨_, t₇, u₇, rfl, _, h⟩ := h.bindE_ok
  obtain ⟨_, t₈, u₈, rfl, _, h⟩ := h.bindE_ok
  obtain ⟨_, hret⟩ := pure_ok h
  obtain ⟨rfl, _⟩ := Prod.mk.inj hret
  obtain ⟨_, hpriv⟩ := ofExcept_ok h₂
  rw [haddr] at hpriv
  cases hpriv
  exact ⟨{
    share := share
    link := link
    sharePriv := sharePriv
    shareFetched := (getJson_fetched h₁).mono fun e he => by simp [he]
    linkFetched := (getJson_fetched h₄).mono fun e he => by simp [he]
    shareUnlocked := (ofExcept_ok h₃).2
    parentUnlocked := (ofExcept_ok h₅).2 }⟩

/-- where the keys of a new node come from -/
structure NodeOrigin (K : Crates) (up : ProtonFileUploader) (tr : Trace host)
    (node : NewNode) where
  volumeShare : Shares.Share
  volumeFetched : Fetched K tr Shares.GetShareResponse.ofJson (sharePath up.parent.volumeId)
    ⟨volumeShare⟩
  volume : node.volumeId = volumeShare.volumeId
  email : node.addressEmail = up.account.primaryEmail
  address : up.account.addressPrivateKey up.account.primaryEmail = .ok node.addressPriv
  passphrase : String
  nodePriv : PrivateKey
  nodePubArmored : String
  keyCoins : Coins
  generated : up.openpgp.generateKey passphrase {} keyCoins = .ok (nodePriv, nodePubArmored)
  nodePub : node.nodePub =
    { armored := nodePubArmored, fingerprintHex := nodePriv.fingerprintHex }
  parentPriv : PrivateKey
  parent : ParentOrigin K up tr node.addressPriv parentPriv
  parentPub : PublicKey
  parentPublic : up.openpgp.publicKey parentPriv = .ok parentPub
  passphraseKey : SessionKey
  passphraseSealed : Bytes
  sealCoins : Coins
  passphraseSeal : up.openpgp.encryptAndSign (asBytes passphrase) passphraseKey [parentPub]
    node.addressPriv {} sealCoins = .ok passphraseSealed
  packet : Bytes
  packetCoins : Coins
  packetMade : up.openpgp.encryptSessionKey node.contentSessionKey [node.nodePub] packetCoins =
    .ok packet
  reqParent : node.createReq.parentLinkId = up.parent.nodeId
  reqKey : node.createReq.nodeKey = nodePriv.armored
  reqPassphrase : node.createReq.nodePassphrase = armor passphraseSealed .message
  reqPacket : node.createReq.contentKeyPacket = Base64.encode packet

def NodeOrigin.mono {node : NewNode} {tr' : Trace host} (o : NodeOrigin K up tr node)
    (hs : tr ⊆ tr') : NodeOrigin K up tr' node :=
  { o with volumeFetched := o.volumeFetched.mono hs, parent := o.parent.mono hs }

theorem generateNode_ok {node : NewNode}
    (h : Runs (generateNode K up).run tr (.done (.ok node))) :
    Nonempty (NodeOrigin K up tr node) := by
  obtain ⟨volumeId, t₁, u₁, rfl, hvol, h⟩ := h.bindE_ok
  obtain ⟨⟨volumeShare⟩, t₁', u₁', rfl, hvshare, hv⟩ := hvol.bindE_ok
  obtain ⟨rfl, rfl⟩ := pure_ok hv
  obtain ⟨addressPriv, t₂, u₂, rfl, h₂, h⟩ := h.bindE_ok
  obtain ⟨c₀, t₃, u₃, rfl, _, h⟩ := h.bindE_ok
  obtain ⟨⟨nodePriv, nodePubArmored⟩, t₄, u₄, rfl, h₄, h⟩ := h.bindE_ok
  obtain ⟨⟨parentPriv, hashKey⟩, t₅, u₅, rfl, h₅, h⟩ := h.bindE_ok
  obtain ⟨parentPub, t₆, u₆, rfl, h₆, h⟩ := h.bindE_ok
  obtain ⟨passphraseKey, t₇, u₇, rfl, _, h⟩ := h.bindE_ok
  obtain ⟨passphraseSealed, t₈, u₈, rfl, h₈, h⟩ := h.bindE_ok
  obtain ⟨_, t₉, u₉, rfl, _, h⟩ := h.bindE_ok
  obtain ⟨contentSessionKey, t₁₀, u₁₀, rfl, _, h⟩ := h.bindE_ok
  obtain ⟨packet, t₁₁, u₁₁, rfl, h₁₁, h⟩ := h.bindE_ok
  obtain ⟨_, t₁₂, u₁₂, rfl, _, h⟩ := h.bindE_ok
  obtain ⟨_, t₁₃, u₁₃, rfl, _, h⟩ := h.bindE_ok
  obtain ⟨_, t₁₄, u₁₄, rfl, _, h⟩ := h.bindE_ok
  obtain ⟨_, t₁₅, u₁₅, rfl, _, h⟩ := h.bindE_ok
  obtain ⟨_, rfl⟩ := pure_ok h
  have haddr := (ofExcept_ok h₂).2
  obtain ⟨keyCoins, _, hgen⟩ := random_ok h₄
  obtain ⟨sealCoins, _, hseal⟩ := random_ok h₈
  obtain ⟨packetCoins, _, hpacket⟩ := random_ok h₁₁
  obtain ⟨parent⟩ := resolveParentContext_ok haddr h₅
  exact ⟨{
    volumeShare := volumeShare
    volumeFetched := (getJson_fetched hvshare).mono fun e he => by simp [he]
    volume := rfl
    email := rfl
    address := haddr
    passphrase := up.openpgp.generatePassphrase c₀
    nodePriv := nodePriv
    nodePubArmored := nodePubArmored
    keyCoins := keyCoins
    generated := hgen
    nodePub := rfl
    parentPriv := parentPriv
    parent := parent.mono fun e he => by simp [he]
    parentPub := parentPub
    parentPublic := (ofExcept_ok h₆).2
    passphraseKey := passphraseKey
    passphraseSealed := passphraseSealed
    sealCoins := sealCoins
    passphraseSeal := hseal
    packet := packet
    packetCoins := packetCoins
    packetMade := hpacket
    reqParent := rfl
    reqKey := rfl
    reqPassphrase := rfl
    reqPacket := rfl }⟩

/-- the answer of a probed `POST` -/
def Posted (K : Crates) (tr : Trace host) {α : Type} (dec : Json → Option α) (path : String)
    (body : Json) (a : α) : Prop :=
  ∃ resp, ⟨.requestJson (.bare .post path (some body)), .ok resp⟩ ∈ tr ∧
    K.Envelopes dec resp.body a

theorem Posted.mono {α : Type} {dec : Json → Option α} {path : String} {body : Json} {a : α}
    {tr' : Trace host} (h : Posted K tr dec path body a) (hs : tr ⊆ tr') :
    Posted K tr' dec path body a := by
  obtain ⟨resp, hm, he⟩ := h
  exact ⟨resp, hs hm, he⟩

theorem postCreateFile_ok {volumeId : String} {req : Upload.CreateFileRequest}
    {file : Upload.CreatedFile}
    (h : Runs (postCreateFile K volumeId req).run tr (.done (.ok file))) :
    Posted K tr Upload.CreateFileResponse.ofJson (filesPath volumeId) req.toJson ⟨file⟩ := by
  obtain ⟨resp, t, u, rfl, hpost, h⟩ := h.bindE_ok
  obtain ⟨rfl, rfl⟩ := pure_ok h
  obtain ⟨ans, rfl, henv⟩ := postProbed_ok hpost
  exact ⟨ans, List.mem_append_left _ (List.mem_singleton.mpr rfl), henv⟩

/-- where a draft comes from -/
structure DraftOrigin (K : Crates) (up : ProtonFileUploader) (tr : Trace host) (d : Draft) where
  node : NewNode
  origin : NodeOrigin K up tr node
  created : Posted K tr Upload.CreateFileResponse.ofJson (filesPath node.volumeId)
    node.createReq.toJson ⟨⟨d.linkId, d.revisionId⟩⟩
  volumeId : d.volumeId = node.volumeId
  addressEmail : d.addressEmail = node.addressEmail
  addressPriv : d.addressPriv = node.addressPriv
  nodePub : d.nodePub = node.nodePub
  contentSessionKey : d.contentSessionKey = node.contentSessionKey

theorem createDraft_ok {d : Draft} (h : Runs (createDraft K up).run tr (.done (.ok d))) :
    Nonempty (DraftOrigin K up tr d) := by
  obtain ⟨node, t₁, u₁, rfl, h₁, h⟩ := h.bindE_ok
  obtain ⟨file, t₂, u₂, rfl, h₂, h⟩ := h.bindE_ok
  obtain ⟨_, t₃, u₃, rfl, _, h⟩ := h.bindE_ok
  obtain ⟨_, rfl⟩ := pure_ok h
  obtain ⟨origin⟩ := generateNode_ok h₁
  exact ⟨{
    node := node
    origin := origin.mono fun e he => by simp [he]
    created := (postCreateFile_ok h₂).mono fun e he => by simp [he]
    volumeId := rfl
    addressEmail := rfl
    addressPriv := rfl
    nodePub := rfl
    contentSessionKey := rfl }⟩

/-! ### the blocks -/

theorem fillBuffer_ok {fuel remaining : Nat} {buf out : Bytes}
    (h : Runs (fillBuffer fuel remaining buf).run tr (.done (.ok out))) :
    out = buf ++ delivered tr := by
  induction fuel generalizing remaining buf tr with
  | zero =>
    obtain ⟨rfl, rfl⟩ := pure_ok h
    exact (List.append_nil _).symm
  | succ fuel ih =>
    obtain ⟨r, t, u, rfl, h₁, hk⟩ := h.bindE_ok
    obtain rfl := call_ok h₁
    match r, hk with
    | .error e, hk => exact absurd hk fail_ok
    | .ok ⟨bs, hbs⟩, hk =>
      have hd : delivered [(⟨.read remaining, .ok ⟨bs, hbs⟩⟩ : Event host)] = bs :=
        List.append_nil bs
      rw [delivered_append, hd]
      change Runs (ExceptT.run (if bs = [] then _ else _)) u _ at hk
      split at hk
      · next hnil =>
        obtain ⟨rfl, rfl⟩ := pure_ok hk
        simp [hnil]
      · split at hk
        · obtain ⟨rfl, rfl⟩ := pure_ok hk
          simp
        · rw [ih hk, List.append_assoc]

theorem encryptBlock_ok {d : Draft} {plaintext : Bytes} {b : SealedBlock}
    (h : Runs (encryptBlock up d plaintext).run tr (.done (.ok b))) :
    ∃ c, up.openpgp.encryptAndSign plaintext d.contentSessionKey [] d.addressPriv {} c =
      .ok b.ciphertext := by
  obtain ⟨ciphertext, t, u, rfl, h₁, h⟩ := h.bindE_ok
  obtain ⟨_, t₂, u₂, rfl, _, h⟩ := h.bindE_ok
  obtain ⟨_, t₃, u₃, rfl, _, h⟩ := h.bindE_ok
  obtain ⟨_, rfl⟩ := pure_ok h
  obtain ⟨c, _, hc⟩ := random_ok h₁
  exact ⟨c, hc⟩

/-- the block is an encryption of the plaintext under the content session key -/
def Sealed (up : ProtonFileUploader) (d : Draft) (plaintext : Bytes) (b : EncryptedBlock K) :
    Prop :=
  ∃ c, up.openpgp.encryptAndSign plaintext d.contentSessionKey [] d.addressPriv {} c =
    .ok b.ciphertext

/-- the loop has turned the stream into blocks: from state `s` to state `s'` it read `chunks` -/
structure ReadOff (up : ProtonFileUploader) (d : Draft) (tr : Trace host) (s s' : Chunks K)
    (chunks : List Bytes) : Prop where
  stream : chunks.flatten = delivered tr
  hashed : s'.hashed = s.hashed ++ chunks.flatten
  blocks : ∃ new, s'.blocks = s.blocks ++ new ∧ List.Forall₂ (Sealed up d) chunks new
  filled : ∀ c ∈ chunks, c ≠ []

theorem delivered_encryptBlock {d : Draft} {plaintext : Bytes}
    {o : Outcome (Except Fault SealedBlock)} (h : Runs (encryptBlock up d plaintext).run tr o) :
    delivered tr = [] := by
  have hw : Within (S := host) (fun c => isRead c = false) (fun _ => True)
      (encryptBlock up d plaintext) := within_encryptBlock (fun _ => trivial) rfl
  exact delivered_eq_nil (h.only hw.1)

theorem readBlocks_ok {d : Draft} {fuel : Nat} {s s' : Chunks K}
    (h : Runs (readBlocks K up d fuel s).run tr (.done (.ok s'))) :
    ∃ chunks, ReadOff up d tr s s' chunks := by
  induction fuel generalizing s tr with
  | zero => cases h
  | succ fuel ih =>
    obtain ⟨cancelled, t₁, u₁, rfl, h₁, k₁⟩ := h.bindE_ok
    obtain ⟨_, t₂, u₂, rfl, h₂, k₂⟩ := k₁.bindE_ok
    obtain ⟨plaintext, t₃, u₃, rfl, h₃, k₃⟩ := k₂.bindE_ok
    obtain rfl := call_ok h₁
    obtain ⟨rfl, _⟩ := require_ok h₂
    have hplain : plaintext = delivered t₃ := fillBuffer_ok h₃
    have hcancel : deliveredBy ⟨.isCancelled .upload, cancelled⟩ = [] := rfl
    change Runs (ExceptT.run (if plaintext = [] then _ else _)) u₃ _ at k₃
    split at k₃
    · next hnil =>
      obtain ⟨rfl, rfl⟩ := pure_ok k₃
      refine ⟨[], ⟨?_, (List.append_nil _).symm, ⟨[], (List.append_nil _).symm, .nil⟩, ?_⟩⟩
      · simp [hcancel, ← hplain, hnil]
      · exact List.forall_mem_nil _
    · next hne =>
      obtain ⟨b, t₄, u₄, rfl, h₄, k₄⟩ := k₃.bindE_ok
      obtain ⟨_, t₅, u₅, rfl, h₅, k₅⟩ := k₄.bindE_ok
      obtain rfl := call_ok h₅
      have hsealed : Sealed up d plaintext (b.numbered K s.blockIndex) := encryptBlock_ok h₄
      have hprogress : ∀ n (u : Unit), deliveredBy ⟨.sendProgress n, u⟩ = [] := fun _ _ => rfl
      change Runs (ExceptT.run (if plaintext.length < BLOCK_SIZE then _ else _)) u₅ _ at k₅
      split at k₅
      · obtain ⟨rfl, rfl⟩ := pure_ok k₅
        refine ⟨[plaintext], ⟨?_, ?_, ⟨[b.numbered K s.blockIndex], rfl, .cons hsealed .nil⟩, ?_⟩⟩
        · simp [hcancel, hprogress, delivered_encryptBlock h₄, ← hplain]
        · simp [Chunks.push]
        · exact List.forall_mem_singleton.mpr hne
      · obtain ⟨chunks, hstream, hhashed, ⟨new, hblocks, hall⟩, hfilled⟩ := ih k₅
        refine ⟨plaintext :: chunks, ⟨?_, ?_, ⟨b.numbered K s.blockIndex :: new, ?_,
          .cons hsealed hall⟩, ?_⟩⟩
        · simp [hcancel, hprogress, delivered_encryptBlock h₄, ← hplain, ← hstream]
        · simp [hhashed, Chunks.push]
        · simp [hblocks, Chunks.push]
        · exact List.forall_mem_cons.mpr ⟨hne, hfilled⟩

/-! ### the links and the posts -/

/-- the links a successful request for links leaves -/
structure LinksOrigin (K : Crates) (up : ProtonFileUploader) (tr : Trace host) (d : Draft)
    (blocks : List (EncryptedBlock K)) (total : Nat) (sorted : List Upload.UploadLink) where
  addressId : String
  links : List Upload.UploadLink
  resp : JsonResponse
  asked : posts blocksPath tr =
    [(some (blockUploadRequest K d addressId blocks).toJson, .ok resp)]
  answered : K.Envelopes Upload.RequestBlockUploadResponse.ofJson resp.body ⟨links⟩
  nonempty : blocks ≠ []
  size : total = up.metadata.expectedSize
  count : links.length = blocks.length
  sorted_eq : sorted = Sorting.sortByKey (·.index) links

theorem postRequestBlocks_ok {req : Upload.RequestBlockUploadRequest}
    {links : List Upload.UploadLink}
    (h : Runs (postRequestBlocks K req).run tr (.done (.ok links))) :
    ∃ resp, tr = [⟨.requestJson (.bare .post blocksPath (some req.toJson)), .ok resp⟩] ∧
      K.Envelopes Upload.RequestBlockUploadResponse.ofJson resp.body ⟨links⟩ := by
  obtain ⟨resp, t, u, rfl, hpost, h⟩ := h.bindE_ok
  obtain ⟨rfl, rfl⟩ := pure_ok h
  rw [List.append_nil]
  exact postProbed_ok hpost

theorem requestBlocks_ok {d : Draft} {s : Chunks K} {sorted : List Upload.UploadLink}
    (h : Runs (requestBlocks K up d s).run tr (.done (.ok sorted))) :
    Nonempty (LinksOrigin K up tr d s.blocks s.totalBytes sorted) := by
  obtain ⟨_, t₁, u₁, rfl, h₁, h⟩ := h.bindE_ok
  obtain ⟨_, t₂, u₂, rfl, h₂, h⟩ := h.bindE_ok
  obtain ⟨addressId, t₃, u₃, rfl, h₃, h⟩ := h.bindE_ok
  obtain ⟨links, t₄, u₄, rfl, h₄, h⟩ := h.bindE_ok
  obtain ⟨_, t₅, u₅, rfl, h₅, h⟩ := h.bindE_ok
  obtain ⟨rfl, rfl⟩ := pure_ok h
  obtain ⟨rfl, hne⟩ := require_ok h₁
  obtain ⟨rfl, hsize⟩ := require_ok h₂
  obtain ⟨rfl, _⟩ := ofExcept_ok h₃
  obtain ⟨rfl, hcount⟩ := require_ok h₅
  obtain ⟨resp, rfl, henv⟩ := postRequestBlocks_ok h₄
  exact ⟨{
    addressId := addressId
    links := links
    resp := resp
    asked := posts_singleton _ _ _
    answered := henv
    nonempty := by
      intro hnil
      rw [hnil] at hne
      cases hne
    size := of_decide_eq_true hsize
    count := of_decide_eq_true hcount
    sorted_eq := rfl }⟩

/-- the block was posted to the link, and the storage answered 200 -/
def Accepted (pair : EncryptedBlock K × Upload.UploadLink)
    (post : BlobRequest × Except Error JsonResponse) : Prop :=
  post.1 = blockPost pair ∧ ∃ resp, post.2 = .ok resp ∧ resp.status = 200

theorem putBlock_ok {bareUrl token : String} {ciphertext : Bytes} {u : Unit}
    (h : Runs (putBlock bareUrl token ciphertext).run tr (.done (.ok u))) :
    ∃ resp, tr = [⟨.requestBlob (blockRequest bareUrl token ciphertext), .ok resp⟩] ∧
      resp.status = 200 := by
  obtain ⟨resp, t, v, rfl, h₁, h⟩ := h.bindE_ok
  obtain ⟨rfl, hs⟩ := require_ok h
  exact ⟨resp, by simpa using requestBlob_ok h₁, of_decide_eq_true hs⟩

theorem putBlocks_ok {pairs : List (EncryptedBlock K × Upload.UploadLink)} {u : Unit}
    (h : Runs (putBlocks K pairs).run tr (.done (.ok u))) :
    List.Forall₂ Accepted pairs (blobs tr) := by
  induction pairs generalizing tr with
  | nil =>
    obtain ⟨rfl, _⟩ := pure_ok h
    exact .nil
  | cons pair rest ih =>
    obtain ⟨_, t₁, u₁, rfl, h₁, k₁⟩ := h.bindE_ok
    obtain ⟨_, t₂, u₂, rfl, h₂, k₂⟩ := k₁.bindE_ok
    obtain ⟨_, t₃, u₃, rfl, h₃, k₃⟩ := k₂.bindE_ok
    obtain rfl := call_ok h₁
    obtain ⟨rfl, _⟩ := require_ok h₂
    obtain ⟨resp, rfl, hs⟩ := putBlock_ok h₃
    exact .cons ⟨rfl, resp, rfl, hs⟩ (ih k₃)

/-! ### the commit -/

/-- where a commit request comes from -/
structure CommitOrigin (K : Crates) (up : ProtonFileUploader) (d : Draft) (s : Chunks K)
    (req : Upload.CommitRevisionRequest) where
  signature : Bytes
  signCoins : Coins
  signed : up.openpgp.sign (manifestPayload K s.blocks) d.addressPriv "" signCoins =
    .ok signature
  manifest : req.manifestSignature = armor signature .signature
  address : req.signatureAddress = d.addressEmail

theorem commitRequest_ok {d : Draft} {s : Chunks K} {req : Upload.CommitRevisionRequest}
    (h : Runs (commitRequest K up d s).run tr (.done (.ok req))) :
    Nonempty (CommitOrigin K up d s req) := by
  obtain ⟨signature, t₁, u₁, rfl, h₁, h⟩ := h.bindE_ok
  obtain ⟨_, t₂, u₂, rfl, _, h⟩ := h.bindE_ok
  obtain ⟨_, t₃, u₃, rfl, _, h⟩ := h.bindE_ok
  obtain ⟨_, rfl⟩ := pure_ok h
  obtain ⟨c, _, hc⟩ := random_ok h₁
  exact ⟨{ signature := signature, signCoins := c, signed := hc, manifest := rfl, address := rfl }⟩

def commitPut (d : Draft) (req : Upload.CommitRevisionRequest) : JsonRequest :=
  .bare .put (commitPath d.volumeId d.linkId d.revisionId) (some req.toJson)

/-- the commit step sends its request first, and only then anything else -/
theorem commitRevision_inv {d : Draft} {total : Nat} {req : Upload.CommitRevisionRequest}
    {o : Outcome (Except Fault Unit)} (h : Runs (commitRevision K d total req).run tr o) :
    (tr = [] ∧ o = .running) ∨
      ∃ a post, tr = ⟨.requestJson (commitPut d req), a⟩ :: post ∧ commits post = [] := by
  rcases Runs.call_inv h with hstop | ⟨a, post, rfl, hk⟩
  · exact .inl hstop
  · refine .inr ⟨a, post, rfl, commits_eq_nil ?_⟩
    have hQ : ∀ e : Error, (fun _ : Fault => True) (.error e) := fun _ => trivial
    refine Runs.only hk (Within.bind (A := fun c => isCommit c = false) (Q := fun _ => True)
      (Within.bind (within_ofExcept hQ id a) fun resp => ?_) fun _ => within_call rfl).1
    refine Within.bind (within_ofExcept hQ _ _) fun _ => ?_
    exact within_require hQ _ _

end

end ProtonDrive
