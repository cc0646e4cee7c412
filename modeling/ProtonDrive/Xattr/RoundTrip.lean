import ProtonDrive.RoundTrip.Download
import ProtonDrive.Xattr.Calendar

/-!
# The extended attributes, written and read

The uploader writes the modification time as a text, the downloader reads a number.

* `SealedFor`           a text sealed for the owner of a key;
* `XattrFound`          the reader finds the size and the digest that were written;
* `TimeReturned`        it returns the time that was written, to the second;
* `verifyXattr_written` what it returns of a document of the writer.
-/

set_option linter.unusedVariables false

namespace ProtonDrive
open Encoding Effects Api

/-! ## a sealed text -/

/-- what the key `key` opens of the message is `text` -/
structure SealedFor (P : OpenPgpCrypto) (pair : PrivateKey → PublicKey → Prop) (text : String)
    (key : PrivateKey) where
  sessionKey : SessionKey
  recipient : PublicKey
  signer : PrivateKey
  coins : Coins
  message : Bytes
  sealed : P.encryptAndSign (asBytes text) sessionKey [recipient] signer {} coins = .ok message
  forKey : pair key recipient

namespace SealedFor

def armored {P : OpenPgpCrypto} {pair : PrivateKey → PublicKey → Prop} {text : String}
    {key : PrivateKey} (s : SealedFor P pair text key) : String := armor s.message .message

/-- the document in a sealed text -/
theorem xattrOf {K : Crates} {dl : FileDownloader} {P : OpenPgpCrypto}
    {pair : PrivateKey → PublicKey → Prop} {text : String} {key : PrivateKey}
    (s : SealedFor P pair text key) (ideal : IdealCrypto P pair) (hcrypto : dl.crypto = P)
    (hkey : dl.nodePrivateKey = key) :
    xattrOf K dl (some s.armored) = K.jsonParse (asBytes text) := by
  have hopen : dl.crypto.decryptSessionKey (asBytes s.armored) [dl.nodePrivateKey] =
      .ok s.sessionKey := by
    show dl.crypto.decryptSessionKey (asBytes (armor s.message .message)) _ = _
    rw [hcrypto, hkey, ideal.armored_sessionKey _ s.sealed]
    exact ideal.unwrap_message s.sealed (List.mem_singleton.mpr rfl) s.forKey
  obtain ⟨status, hplain⟩ := ideal.decrypt s.sealed
  have hread : dl.crypto.decryptAndVerify (asBytes s.armored) s.sessionKey [] =
      .ok (asBytes text, status) := by
    show dl.crypto.decryptAndVerify (asBytes (armor s.message .message)) _ _ = _
    rw [hcrypto, ideal.armored_message _ _ s.sealed]
    exact hplain
  simp only [ProtonDrive.xattrOf, hopen, hread, Except.toOption, Option.bind_eq_bind,
    Option.bind_some, fromUtf8_asBytes]

end SealedFor

/-! ## the fields of the document -/

section
variable {size : Nat} {blockSizes : List Nat} {sha1Hex : String} {time : Option SystemTime}

theorem xattrDocument_size (hsize : size < 2 ^ 64) :
    (((xattrDocument size blockSizes sha1Hex time).index "Common").index "Size").asU64 =
      some size := by
  have hmember : ((xattrDocument size blockSizes sha1Hex time).index "Common").index "Size" =
      .num size := by
    unfold xattrDocument
    cases time.bind systemTimeToIso8601 with
    | none => rfl
    | some iso => rfl
  have hfits : (0 : Int) ≤ size ∧ (size : Int) ≤ 18446744073709551615 := by omega
  rw [hmember]
  show ((if _ then some (size : Int) else none : Option Int)).map Int.toNat = _
  rw [if_pos hfits]
  rfl

theorem xattrDocument_sha1 :
    (((xattrDocument size blockSizes sha1Hex time).index "Common").index "Digests").index "SHA1" =
      .str sha1Hex := by
  unfold xattrDocument
  cases time.bind systemTimeToIso8601 with
  | none => rfl
  | some iso => rfl

/-- the time is a text, or it is not there: never a number -/
theorem xattrDocument_time :
    (((xattrDocument size blockSizes sha1Hex time).index "Common").index
      "ModificationTime").asI64 = none := by
  unfold xattrDocument
  cases time.bind systemTimeToIso8601 with
  | none => rfl
  | some iso => rfl

end

/-! ## what the reader makes of it -/

/-- the reader finds the size and the digest that were written -/
def XattrFound (K : Crates) (dl : FileDownloader) (xAttr : Option String) (size : Nat)
    (sha1Hex : String) : Prop :=
  ∃ xattr, xattrOf K dl xAttr = some xattr ∧
    ((xattr.index "Common").index "Size").asU64 = some size ∧
    (((xattr.index "Common").index "Digests").index "SHA1").asStr = some sha1Hex

/-- the reader returns the time that was written, at least to whole seconds -/
def TimeReturned (K : Crates) (dl : FileDownloader) (xAttr : Option String) (totalBytes : Nat)
    (sha1Digest : Bytes) (modificationTime : SystemTime) : Prop :=
  ∃ t, verifyXattr K dl xAttr totalBytes sha1Digest = some t ∧
    t / 1000000000 = modificationTime / 1000000000

section
variable {K : Crates} {dl : FileDownloader} {P : OpenPgpCrypto}
  {pair : PrivateKey → PublicKey → Prop} {key : PrivateKey} {size : Nat} {blockSizes : List Nat}
  {sha1Hex : String} {time : Option SystemTime}

theorem verifyXattr_written (ideal : IdealCrypto P pair) (hcrypto : dl.crypto = P)
    (hkey : dl.nodePrivateKey = key)
    (s : SealedFor P pair (buildXattrJson size blockSizes sha1Hex time) key)
    (hread : K.jsonParse (asBytes (buildXattrJson size blockSizes sha1Hex time)) =
      some (xattrDocument size blockSizes sha1Hex time)) (totalBytes : Nat) (sha1Digest : Bytes) :
    verifyXattr K dl (some s.armored) totalBytes sha1Digest = none := by
  unfold verifyXattr
  rw [s.xattrOf ideal hcrypto hkey, hread, Option.bind_some, xattrDocument_time]
  rfl

theorem xattrFound_written (ideal : IdealCrypto P pair) (hcrypto : dl.crypto = P)
    (hkey : dl.nodePrivateKey = key) (hsize : size < 2 ^ 64)
    (s : SealedFor P pair (buildXattrJson size blockSizes sha1Hex time) key)
    (hread : K.jsonParse (asBytes (buildXattrJson size blockSizes sha1Hex time)) =
      some (xattrDocument size blockSizes sha1Hex time)) :
    XattrFound K dl (some s.armored) size sha1Hex := by
  refine ⟨_, (s.xattrOf ideal hcrypto hkey).trans hread, xattrDocument_size hsize, ?_⟩
  rw [xattrDocument_sha1]
  rfl

end

/-! ## the attributes of an upload -/

section
variable {K : Crates} {up : ProtonFileUploader} {tr : Trace host} {s : Store} {fuel : Nat}
  {pair : PrivateKey → PublicKey → Prop}

/-- the attributes of an upload: what it counted, and the time it was given -/
def uploadDocument (K : Crates) (up : ProtonFileUploader) (tr : Trace host)
    (blockSizes : List Nat) : Json :=
  xattrDocument (delivered tr).length blockSizes (Hex.encode (K.sha1 (delivered tr)).1)
    up.metadata.modificationTime

def uploadXattr (K : Crates) (up : ProtonFileUploader) (tr : Trace host) (blockSizes : List Nat) :
    String :=
  buildXattrJson (delivered tr).length blockSizes (Hex.encode (K.sha1 (delivered tr)).1)
    up.metadata.modificationTime

theorem commitRequest_xattr {d : Draft} {c : Chunks K} {req : Upload.CommitRevisionRequest}
    (h : Runs (commitRequest K up d c).run tr (.done (.ok req))) :
    ∃ key coins message, up.openpgp.encryptAndSign (asBytes (buildXattrJson c.totalBytes c.blockSizes
        (Hex.encode (K.sha1 c.hashed).1) up.metadata.modificationTime)) key [d.nodePub]
        d.addressPriv {} coins = .ok message ∧
      req.xAttr = armor message .message := by
  obtain ⟨_, t₁, u₁, rfl, _, h⟩ := h.bindE_ok
  obtain ⟨key, t₂, u₂, rfl, _, h⟩ := h.bindE_ok
  obtain ⟨message, t₃, u₃, rfl, h₃, h⟩ := h.bindE_ok
  obtain ⟨_, rfl⟩ := pure_ok h
  obtain ⟨coins, _, hmessage⟩ := random_ok h₃
  exact ⟨key, coins, message, hmessage, rfl⟩

/-- an honest server shows the attributes that were sealed for the key of the node -/
theorem Store.Keeps.sealedXattr (ideal : IdealCrypto up.openpgp pair) (hkeeps : s.Keeps K up tr)
    (h : Runs (runUpload K up fuel).run tr (.done (.ok ())))
    {addressPriv sharePriv parentPriv nodePriv : PrivateKey}
    (haddress : up.account.addressPrivateKey up.account.primaryEmail = .ok addressPriv)
    (hshare : decryptShareKey K up.openpgp s.share.key s.share.passphrase addressPriv =
      .ok sharePriv)
    (hparent : decryptNodePrivateKey K up.openpgp s.parent.nodeKey s.parent.nodePassphrase
      sharePriv = .ok parentPriv)
    (hnode : decryptNodePrivateKey K up.openpgp s.link.nodeKey s.link.nodePassphrase parentPriv =
      .ok nodePriv) :
    ∃ blockSizes, ∃ x : SealedFor up.openpgp pair (uploadXattr K up tr blockSizes) nodePriv,
      s.revision.xAttr = some x.armored := by
  obtain ⟨p, post, rfl, hcommit⟩ := runUpload_ok h
  have hsub : p.trace ⊆ p.trace ++ post := List.subset_append_left _ _
  obtain ⟨o⟩ := p.draftOrigin
  have n := o.origin
  -- the keys of the uploader are the ones that open the records
  have hsame : nodePriv = n.nodePriv := by
    have hshareKey := n.parent.shareUnlocked
    have hparentKey := n.parent.parentUnlocked
    obtain rfl := Except.ok.inj (haddress.symm.trans n.address)
    rw [hkeeps.share _ (n.parent.shareFetched.mono hsub)] at hshareKey
    obtain rfl := Except.ok.inj (hshare.symm.trans hshareKey)
    rw [hkeeps.parent _ (n.parent.linkFetched.mono hsub)] at hparentKey
    obtain rfl := Except.ok.inj (hparent.symm.trans hparentKey)
    obtain ⟨_, _, hnodeKey, hpassphrase, _⟩ := hkeeps.created _ _ _ (o.created.mono hsub)
    rw [hnodeKey, hpassphrase, n.reqKey, n.reqPassphrase] at hnode
    exact Except.ok.inj (hnode.symm.trans (unlockKey_sealed ideal n.passphraseSeal
      (List.mem_singleton.mpr rfl) (ideal.publicKey_pair n.parentPublic)
      (ideal.unlock n.generated)))
  have hpair : pair nodePriv p.draft.nodePub := by
    rw [hsame, o.nodePub, n.nodePub]
    exact ideal.generateKey_pair n.generated
  have hdelivered : delivered (p.trace ++ post) = delivered p.trace := by
    rw [delivered_append, delivered_eq_nil (commit_only hcommit (isRead · = false)
      (fun _ _ => rfl) fun _ => rfl), List.append_nil]
  obtain ⟨key, coins, message, hsealed, hxattr⟩ := commitRequest_xattr p.signed
  rw [p.totalBytes, p.hashed, ← hdelivered] at hsealed
  obtain ⟨ans, hput⟩ : ∃ ans, ⟨.requestJson (commitPut p.draft p.request), ans⟩ ∈
      p.trace ++ post := by
    rcases commitRevision_inv hcommit with ⟨_, hstop⟩ | ⟨ans, rest, rfl, _⟩
    · cases hstop
    · exact ⟨ans, List.mem_append_right _ List.mem_cons_self⟩
  obtain ⟨_, hshown, _⟩ := hkeeps.committed _ _ ans hput
  refine ⟨p.chunks.blockSizes, ⟨key, p.draft.nodePub, p.draft.addressPriv, coins, message, hsealed,
    hpair⟩, ?_⟩
  rw [hshown, hxattr]
  rfl

end

/-! ## the time never comes back -/

/-- size and digest are found, the time is not; nor is it after an upload and a download -/
theorem modificationTime_lost (K : Crates) (pair : PrivateKey → PublicKey → Prop) :
    (∀ (dl : FileDownloader) (size : Nat) (blockSizes : List Nat) (sha1Hex : String)
      (mtime : SystemTime), IdealCrypto dl.crypto pair → size < 2 ^ 64 → 0 ≤ mtime →
      ∀ s : SealedFor dl.crypto pair (buildXattrJson size blockSizes sha1Hex (some mtime))
        dl.nodePrivateKey,
      K.jsonParse (asBytes (buildXattrJson size blockSizes sha1Hex (some mtime))) =
        some (xattrDocument size blockSizes sha1Hex (some mtime)) →
      XattrFound K dl (some s.armored) size sha1Hex ∧ ∀ totalBytes sha1Digest,
        ¬ TimeReturned K dl (some s.armored) totalBytes sha1Digest mtime) ∧
    (∀ (up : ProtonFileUploader) (fuel : Nat) (tr : Trace host) (s : Store)
      (client : ProtonDriveClient) (serve : Trace host → (c : HostCall) → c.Ans) (h : Trace host),
      IdealCrypto up.openpgp pair → Runs (runUpload K up fuel).run tr (.done (.ok ())) →
      s.Keeps K up tr → client.openpgp = up.openpgp →
      client.account.addressPrivateKey client.account.primaryEmail =
        up.account.addressPrivateKey up.account.primaryEmail →
      (∀ key, up.account.addressPrivateKey up.account.primaryEmail = .ok key →
        ∃ keys pub, client.account.addressPublicKeys up.account.primaryEmail = .ok keys ∧
          pub ∈ keys ∧ pair key pub) →
      s.Serves K up tr serve →
      (∀ blockSizes, K.jsonParse (asBytes (uploadXattr K up tr blockSizes)) =
        some (uploadDocument K up tr blockSizes)) →
      ∃ tr' stats,
        Yields serve h (downloadNode K client ⟨up.parent.volumeId, s.file.linkId⟩) tr' stats ∧
        written tr' = delivered tr ∧ stats.lastModificationTime = none) := by
  constructor
  · intro dl size blockSizes sha1Hex mtime ideal hsize _ s hread
    refine ⟨xattrFound_written ideal rfl rfl hsize s hread, fun totalBytes sha1Digest hreturned => ?_⟩
    obtain ⟨t, ht, _⟩ := hreturned
    rw [verifyXattr_written ideal rfl rfl s hread] at ht
    cases ht
  · intro up fuel tr s client serve h ideal hupload hkeeps hcrypto haddress hpubs hserves hread
    obtain ⟨addressPriv, hkey, ⟨r⟩⟩ := hkeeps.readable ideal hupload
    obtain ⟨tr', stats, hy, hw, dl, hdl, _, _, _, htime⟩ := downloadNode_gives ideal hkeeps hserves
      r hcrypto (haddress.trans hkey) (hpubs _ hkey) h
    refine ⟨tr', stats, hy, hw, ?_⟩
    obtain ⟨blockSizes, x, hx⟩ := hkeeps.sealedXattr ideal hupload hkey r.shareUnlocked
      r.parentUnlocked r.nodeUnlocked
    have htimeless : verifyXattr K dl (some x.armored) (delivered tr).length
        (K.sha1 (delivered tr)).1 = none :=
      verifyXattr_written ideal hdl.crypto hdl.nodePrivateKey x (hread blockSizes) _ _
    rw [htime, hx]
    exact htimeless

/-! ## a small document -/

def timedXattr : String := buildXattrJson 1 [1] "6dcd" (some 1700000000000000000)

def timedCrates : Crates := smallCrates [xattrDocument 1 [1] "6dcd" (some 1700000000000000000)]

def timedSealed : SealedFor smallDownloader.crypto sameFingerprint timedXattr
    smallDownloader.nodePrivateKey where
  sessionKey := smallKey
  recipient := { armored := "node", fingerprintHex := "node" }
  signer := smallNodeKey
  coins := 0
  message := Transparent.encrypt (asBytes timedXattr) smallKey
    [{ armored := "node", fingerprintHex := "node" }]
  sealed := rfl
  forKey := rfl

/-- a reader that knows the document reads it -/
theorem buildXattrJson_read (size : Nat) (blockSizes : List Nat) (sha1Hex : String)
    (time : Option SystemTime) : (smallCrates [xattrDocument size blockSizes sha1Hex time]).jsonParse
      (asBytes (buildXattrJson size blockSizes sha1Hex time)) =
        some (xattrDocument size blockSizes sha1Hex time) := by
  have hdocs : ([xattrDocument size blockSizes sha1Hex time].map textOf).Nodup :=
    List.nodup_singleton _
  exact readTable_textOf hdocs (List.mem_singleton.mpr rfl)

theorem timedXattr_read : timedCrates.jsonParse (asBytes timedXattr) =
    some (xattrDocument 1 [1] "6dcd" (some 1700000000000000000)) :=
  buildXattrJson_read 1 [1] "6dcd" (some 1700000000000000000)

theorem modificationTime_lost_small :
    XattrFound timedCrates smallDownloader (some timedSealed.armored) 1 "6dcd" ∧
      ¬ TimeReturned timedCrates smallDownloader (some timedSealed.armored) 1 []
        1700000000000000000 := by
  obtain ⟨hwritten, _⟩ := modificationTime_lost timedCrates sameFingerprint
  obtain ⟨hfound, hlost⟩ := hwritten smallDownloader 1 [1] "6dcd" 1700000000000000000
    transparent_ideal (by decide) (by decide) timedSealed timedXattr_read
  exact ⟨hfound, hlost 1 []⟩

/-- 14 November 2023 is written as a text, and read as nothing -/
theorem timedXattr_returnsNothing :
    systemTimeToIso8601 1700000000000000000 = some "2023-11-14T22:13:20.000Z" ∧
      ¬ TimeReturned timedCrates smallDownloader (some timedSealed.armored) 1 []
        1700000000000000000 := by
  refine ⟨by decide, fun hreturned => ?_⟩
  obtain ⟨t, ht, _⟩ := hreturned
  have hnone := verifyXattr_written transparent_ideal rfl rfl timedSealed timedXattr_read 1 []
  exact absurd (ht.symm.trans hnone) (Option.some_ne_none t)

end ProtonDrive
