import ProtonDrive.Core.Upload
import ProtonDrive.Core.Scripted
import ProtonDrive.Core.Served

/-!
# The key of a share (`client.rs`, `upload.rs`)

A share names the address its passphrase is encrypted to.  The client unlocks it with the key of the
primary address instead, in two places: `resolve_share_key`, and the first half of
`resolve_parent_context`, which is cut out here as `parentShareKey`.

* `SealedOnly`             a message opens only with a key it was made for;
* `AddressShare`           a share whose passphrase is encrypted to the key of the address it names;
* `share_key_of_primary`   both find the key of such a share exactly if the primary key opens it.
-/

set_option linter.unusedVariables false

namespace ProtonDrive
open Encoding Effects Api

/-! ## the two copies -/

section
variable (K : Crates) (up : ProtonFileUploader)

/-- `resolve_parent_context` up to the key of the share -/
def parentShareKey (shareId : String) : Sdk PrivateKey := do
  let shareResp ← getJson K "share JSON parse" "GetShareResponse" Shares.GetShareResponse.ofJson
    ("/drive/shares/" ++ shareId)
  let share := shareResp.share
  let addressPriv ← ofExcept id (up.account.addressPrivateKey up.account.primaryEmail)
  ofExcept id (decryptShareKey K up.openpgp share.key share.passphrase addressPriv)

/-- `resolve_parent_context` from the key of the share on -/
def parentContext (shareId : String) (sharePriv : PrivateKey) : Sdk (PrivateKey × Bytes) := do
  let linkResp ← getJson K "parent link JSON parse" "GetLinkResponse" Nodes.GetLinkResponse.ofJson
    ("/drive/shares/" ++ shareId ++ "/links/" ++ up.parent.nodeId)
  let link := linkResp.link
  let parentNodePriv ← ofExcept id
    (decryptNodePrivateKey K up.openpgp link.nodeKey link.nodePassphrase sharePriv)
  let nodeHashKey ← ofExcept id
    ((link.folderProperties.bind (·.nodeHashKey)).elim
      (.error (.internal "parent link is not a folder or has no NodeHashKey")) .ok)
  let hashKeyBytes := asBytes nodeHashKey
  let hashKeySessionKey ← ofExcept .crypto
    (up.openpgp.decryptSessionKey hashKeyBytes [parentNodePriv])
  let (parentHashKey, _) ← ofExcept .crypto
    (up.openpgp.decryptAndVerify hashKeyBytes hashKeySessionKey [])
  return (parentNodePriv, parentHashKey)

theorem resolveParentContext_eq (shareId : String) :
    resolveParentContext K up shareId = parentShareKey K up shareId >>= parentContext K up shareId := by
  unfold resolveParentContext parentShareKey parentContext
  simp only [bind_assoc]

end

/-! ## shares of an address -/

/-- a message opens only with a key it was made for -/
def SealedOnly (P : OpenPgpCrypto) (pair : PrivateKey → PublicKey → Prop) : Prop :=
  ∀ {data sk keys signer opts c message k sk'},
    P.encryptAndSign data sk keys signer opts c = .ok message →
    P.decryptSessionKey message [k] = .ok sk' → ∃ pub ∈ keys, pair k pub

/-- the passphrase of the share is encrypted to the key of the address the share names -/
structure AddressShare (P : OpenPgpCrypto) (pair : PrivateKey → PublicKey → Prop)
    (account : ProtonDriveAccount) (share : Shares.Share) (sharePriv : PrivateKey) where
  email : String
  addressPriv : PrivateKey
  pub : PublicKey
  own : account.addressId email = .ok share.addressId
  unlocked : account.addressPrivateKey email = .ok addressPriv
  pairs : pair addressPriv pub
  secret : String
  sessionKey : SessionKey
  signer : PrivateKey
  opts : EncryptOptions
  coins : Coins
  message : Bytes
  sealing : P.encryptAndSign (asBytes secret) sessionKey [pub] signer opts coins = .ok message
  passphrase : share.passphrase = armor message .message
  opens : P.decryptKey share.key secret = .ok sharePriv

section
variable {K : Crates} {P : OpenPgpCrypto} {pair : PrivateKey → PublicKey → Prop}
  {account : ProtonDriveAccount} {share : Shares.Share} {sharePriv k : PrivateKey}

/-- the passphrase opens with the keys it is encrypted to and with no others -/
theorem AddressShare.unlocks_iff (ideal : IdealCrypto P pair) (only : SealedOnly P pair)
    (s : AddressShare P pair account share sharePriv) :
    decryptShareKey K P share.key share.passphrase k = .ok sharePriv ↔ pair k s.pub := by
  constructor
  · intro h
    obtain ⟨sk, _, _, _, hopen, _⟩ := unlockKey_ok h
    rw [s.passphrase, base64OrRaw_armor, ideal.armored_sessionKey _ s.sealing] at hopen
    obtain ⟨pub, hmem, hpair⟩ := only s.sealing hopen
    rwa [List.mem_singleton.mp hmem] at hpair
  · intro h
    rw [s.passphrase]
    exact unlockKey_sealed ideal s.sealing (List.mem_singleton_self _) h s.opens

variable {serve : Trace host → (c : HostCall) → c.Ans}

/-- a check at the end of a program decides what it returns -/
theorem Gives.ofExcept_iff {α β : Type} {p : Sdk α} {f : α → Except Error β} {a : α} {b : β}
    (hp : Gives serve p (· = a) []) :
    Gives serve (p >>= fun a => ProtonDrive.ofExcept id (f a)) (· = b) [] ↔ f a = .ok b := by
  constructor
  · intro h
    obtain ⟨tr, b', hy, _, hb⟩ := h []
    obtain ⟨t, a', hyp, _, ha⟩ := hp []
    rw [ha] at hyp
    rw [hb] at hy
    unfold Yields at hy
    rw [exec_bindE serve [] p _ hyp] at hy
    have hlast := (Prod.mk.inj hy).2
    cases hf : f a with
    | ok c =>
      rw [hf] at hlast
      exact Except.ok.inj (Option.some.inj hlast) ▸ rfl
    | error e =>
      rw [hf] at hlast
      cases hlast
  · intro h
    exact hp.silentThen (Gives.ofExcept h)

/-! ## the key -/

variable {client : ProtonDriveClient} {shareId : String} {primaryPriv : PrivateKey}

/-- the three steps the two copies share: the share, the key of the primary address, the unlock -/
theorem shareKey_gives_iff {what : String} (ideal : IdealCrypto P pair) (only : SealedOnly P pair)
    (s : AddressShare P pair account share sharePriv)
    (hprimary : account.addressPrivateKey account.primaryEmail = .ok primaryPriv)
    (hserved : ∀ h, Answered K Shares.GetShareResponse.ofJson
      (serve h (.requestJson (.bare .get ("/drive/shares/" ++ shareId) none))) ⟨share⟩) :
    Gives serve (do
        let resp ← getJson K what "GetShareResponse" Shares.GetShareResponse.ofJson
          ("/drive/shares/" ++ shareId)
        let addressKey ← ofExcept id (account.addressPrivateKey account.primaryEmail)
        ofExcept id (decryptShareKey K P resp.share.key resp.share.passphrase addressKey))
      (· = sharePriv) [] ↔ pair primaryPriv s.pub := by
  have hshare : Gives serve (getJson K what "GetShareResponse" Shares.GetShareResponse.ofJson
      ("/drive/shares/" ++ shareId)) (· = ⟨share⟩) [] := Gives.getJsonOr hserved
  rw [hprimary]
  exact (Gives.ofExcept_iff (f := fun resp =>
    decryptShareKey K P resp.share.key resp.share.passphrase primaryPriv) hshare).trans
      (s.unlocks_iff ideal only)

/-- both copies find the key of the share -/
structure ShareKeyFound (K : Crates) (client : ProtonDriveClient) (up : ProtonFileUploader)
    (serve : Trace host → (c : HostCall) → c.Ans) (shareId : String) (sharePriv : PrivateKey) :
    Prop where
  listing : Gives serve (resolveShareKey K client shareId) (· = sharePriv) []
  upload : Gives serve (parentShareKey K up shareId) (· = sharePriv) []

theorem shareKeyFound_iff {up : ProtonFileUploader} (hopenpgp : up.openpgp = client.openpgp)
    (haccount : up.account = client.account) (ideal : IdealCrypto client.openpgp pair)
    (only : SealedOnly client.openpgp pair)
    (s : AddressShare client.openpgp pair client.account share sharePriv)
    (hprimary : client.account.addressPrivateKey client.account.primaryEmail = .ok primaryPriv)
    (hserved : ∀ h, Answered K Shares.GetShareResponse.ofJson
      (serve h (.requestJson (.bare .get ("/drive/shares/" ++ shareId) none))) ⟨share⟩) :
    ShareKeyFound K client up serve shareId sharePriv ↔ pair primaryPriv s.pub := by
  have hlisting : Gives serve (resolveShareKey K client shareId) (· = sharePriv) [] ↔
      pair primaryPriv s.pub := shareKey_gives_iff ideal only s hprimary hserved
  have hupload : Gives serve (parentShareKey K up shareId) (· = sharePriv) [] ↔
      pair primaryPriv s.pub := by
    unfold parentShareKey
    rw [hopenpgp, haccount]
    exact shareKey_gives_iff ideal only s hprimary hserved
  exact ⟨fun h => hlisting.mp h.listing, fun h => ⟨hlisting.mpr h, hupload.mpr h⟩⟩

theorem share_key_of_primary {parent : NodeUid} {name : String} {metadata : UploadMetadata}
    {up : ProtonFileUploader} (hup : fileUploader client parent name metadata = .ok up)
    (ideal : IdealCrypto client.openpgp pair) (only : SealedOnly client.openpgp pair)
    (s : AddressShare client.openpgp pair client.account share sharePriv)
    (hprimary : client.account.addressPrivateKey client.account.primaryEmail = .ok primaryPriv)
    (hserved : ∀ h, Answered K Shares.GetShareResponse.ofJson
      (serve h (.requestJson (.bare .get ("/drive/shares/" ++ shareId) none))) ⟨share⟩) :
    resolveParentContext K up shareId = parentShareKey K up shareId >>= parentContext K up shareId ∧
      (ShareKeyFound K client up serve shareId sharePriv ↔ pair primaryPriv s.pub) := by
  obtain ⟨_, rfl⟩ := fileUploader_ok hup
  exact ⟨resolveParentContext_eq K _ shareId, shareKeyFound_iff rfl rfl ideal only s hprimary hserved⟩

end

/-! ## an account with two addresses -/

theorem transparent_sealedOnly : SealedOnly transparentCrypto sameFingerprint := by
  intro data sk keys signer opts c message k sk' hseal hopen
  cases hseal
  exact Transparent.decryptSessionKey_recipient hopen

def workKey : PrivateKey := { armored := "work", fingerprintHex := "work", passphrase := "" }

/-- the address `a` of `me` is the primary one, every other email is that of the address `b` -/
def workAccount : ProtonDriveAccount where
  primaryEmail := "me"
  addressPrivateKey email := if email = "me" then .ok addressKey else .ok workKey
  addressPublicKeys _ := .ok []
  addressId email := if email = "me" then .ok "a" else .ok "b"

def workClient : ProtonDriveClient where
  openpgp := transparentCrypto
  account := workAccount

/-- a share of the address with the given id and key -/
def addressShare (addressId fingerprintHex : String) : Json :=
  .obj [("Code", .num 1000), ("ShareID", .str "s"), ("VolumeID", .str "v"), ("LinkID", .str "root"),
    ("Type", .num 2), ("Key", .str "shr"),
    ("Passphrase", .str (sealedFor fingerprintHex (asBytes "p"))), ("PassphraseSignature", .str ""),
    ("AddressID", .str addressId)]

def addressRecord (addressId fingerprintHex : String) : Shares.Share where
  shareId := "s"
  volumeId := "v"
  linkId := "root"
  type := 2
  key := "shr"
  passphrase := sealedFor fingerprintHex (asBytes "p")
  passphraseSignature := ""
  addressId := addressId
  addressKeyId := none

def shareServer (addressId fingerprintHex : String) : Script where
  json _ _ := textOf (addressShare addressId fingerprintHex)
  blob _ := { status := 200, headers := [], body := [] }
  stream := []

def shareCrates (addressId fingerprintHex : String) : Crates :=
  smallCrates [addressShare addressId fingerprintHex]

theorem shareServer_answers (addressId fingerprintHex : String) (h : Trace host) :
    Answered (shareCrates addressId fingerprintHex) Shares.GetShareResponse.ofJson
      ((shareServer addressId fingerprintHex).serve h
        (.requestJson (.bare .get ("/drive/shares/" ++ "s") none)))
      ⟨addressRecord addressId fingerprintHex⟩ :=
  have hdocs : ([addressShare addressId fingerprintHex].map textOf).Nodup := List.nodup_singleton _
  ⟨_, rfl, smallCrates_envelopes hdocs (List.mem_singleton_self _) rfl⟩

def openShareKey : PrivateKey := { armored := "shr", fingerprintHex := "shr", passphrase := "p" }

/-- the share of an address of the account -/
theorem workShare (email : String) (k : PrivateKey) {addressId : String}
    (hid : workAccount.addressId email = .ok addressId)
    (hkey : workAccount.addressPrivateKey email = .ok k) :
    ∃ s : AddressShare transparentCrypto sameFingerprint workAccount
        (addressRecord addressId k.fingerprintHex) openShareKey,
      s.email = email ∧ s.pub.fingerprintHex = k.fingerprintHex := by
  obtain ⟨message, hsealed, hseal⟩ := sealedFor_eq k.fingerprintHex (asBytes "p")
  exact ⟨{ email := email, addressPriv := k,
           pub := { armored := k.fingerprintHex, fingerprintHex := k.fingerprintHex },
           own := hid, unlocked := hkey, pairs := rfl, secret := "p", sessionKey := _, signer := _,
           opts := _, coins := _, message := message, sealing := hseal, passphrase := hsealed,
           opens := rfl }, rfl, rfl⟩

def workMetadata : UploadMetadata := smallUploader.metadata

def workUploader : ProtonFileUploader where
  openpgp := transparentCrypto
  account := workAccount
  parent := { volumeId := "s", nodeId := "root" }
  name := "f"
  metadata := workMetadata

/-- a share of the primary address opens -/
theorem primary_share_opens :
    ShareKeyFound (shareCrates "a" "addr") workClient workUploader (shareServer "a" "addr").serve "s"
      openShareKey := by
  obtain ⟨s, _, hpub⟩ := workShare "me" addressKey rfl rfl
  have hup : fileUploader workClient ⟨"s", "root"⟩ "f" workMetadata = .ok workUploader := rfl
  exact (share_key_of_primary hup transparent_ideal transparent_sealedOnly s rfl
    (shareServer_answers "a" "addr")).2.mpr hpub

/-- a share of the other address does not -/
theorem second_share_stays_locked :
    ∃ s : AddressShare transparentCrypto sameFingerprint workAccount (addressRecord "b" "work")
        openShareKey, s.email = "work" ∧
      ¬ ShareKeyFound (shareCrates "b" "work") workClient workUploader (shareServer "b" "work").serve
        "s" openShareKey := by
  obtain ⟨s, hemail, hpub⟩ := workShare "work" workKey rfl rfl
  refine ⟨s, hemail, fun hfound => ?_⟩
  have hpair : s.pub.fingerprintHex = "addr" := (shareKeyFound_iff rfl rfl transparent_ideal
    transparent_sealedOnly s rfl (shareServer_answers "b" "work")).mp hfound
  rw [hpub] at hpair
  exact absurd hpair (by decide)

end ProtonDrive
