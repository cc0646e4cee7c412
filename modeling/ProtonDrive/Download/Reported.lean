import ProtonDrive.Core.Rpgp
import ProtonDrive.Core.Scripted
import ProtonDrive.Download.Steps
import ProtonDrive.Lib.Results
import ProtonDrive.Lib.Search

/-!
# What becomes of a manifest signature that does not verify

A download writes the blocks first and looks at the signature of the manifest afterwards, to report
whether it verified.  With `rpgpVerify` the look can fail, and the download with it:

* `deliverBlocks`        a download up to the flush: all blocks are checked, decrypted and written;
* `ValidSignature`       a key that can be read verifies the signature;
* `Reportable`           the signature can be read, and each key that cannot comes after one that
                         verifies it;
* `download_reported`    a delivered download returns `Ok` with the right flag just if it is
                         reportable, and in every order of the keys just if all of them can be read.
-/

set_option linter.unusedVariables false

namespace ProtonDrive
open Encoding Effects Api

/-! ## behind the flush -/

section
variable (K : Crates) (dl : FileDownloader)

/-- steps 1 to 3 of `download_to_writer` -/
def deliverBlocks : Sdk (Download.RevisionWithBlocks × Tally) := do
  let revision ← fetchRevision K dl
  require (!revision.blocks.isEmpty)
    (.internal "protocol violation: active revision has no blocks")
  require revision.manifestSignature.isSome
    (.verification "revision has no ManifestSignature — integrity check failed")
  let sessionKey ← ofExcept id (contentSessionKey dl revision)
  let t ← writeBlocks K dl sessionKey (Sorting.sortByKey (·.index) revision.blocks) Tally.empty
  let flushed ← call .flush
  ofExcept (fun e => .internal ("flush error: " ++ e)) flushed
  return (revision, t)

/-- with other keys of the signer, or with the same ones in another order -/
def FileDownloader.ordered (pubs : List PublicKey) : FileDownloader :=
  { dl with signatureAddressPubs := pubs }

/-- what is returned of a revision whose blocks are written -/
def statsOf (revision : Download.RevisionWithBlocks) (t : Tally) (signatureVerified : Bool) :
    DownloadStats where
  bytes := t.totalBytes
  blocks := t.totalBlocks
  lastModificationTime := verifyXattr K dl revision.xAttr t.totalBytes (K.sha1 t.hashed).1
  signatureVerified := signatureVerified

/-- steps 4 and 5 -/
def reportBlocks (revision : Download.RevisionWithBlocks) (t : Tally) : Except Fault DownloadStats :=
  match verifyManifest K dl (Sorting.sortByKey (·.index) revision.blocks)
      revision.manifestSignature with
  | .error e => .error (.error e)
  | .ok signatureVerified => .ok (statsOf K dl revision t signatureVerified)

end

section
variable {K : Crates} {dl : FileDownloader} {tr : Trace host} {revision : Download.RevisionWithBlocks}
  {t : Tally}

theorem downloadToWriter_eq : downloadToWriter K dl =
    deliverBlocks K dl >>= fun p => ExceptT.mk (pure (reportBlocks K dl p.1 p.2)) := by
  unfold deliverBlocks downloadToWriter
  simp only [bind_assoc, pure_bind]
  refine bind_congr fun revision => bind_congr fun _ => bind_congr fun _ => bind_congr fun sk =>
    bind_congr fun t => bind_congr fun flushed => bind_congr fun _ => ?_
  unfold reportBlocks
  cases verifyManifest K dl (Sorting.sortByKey (·.index) revision.blocks)
    revision.manifestSignature with
  | error e => rfl
  | ok verified => rfl

/-- a delivered download ends as the report says, and makes no further call -/
theorem downloadToWriter_delivered
    (hdel : Runs (deliverBlocks K dl).run tr (.done (.ok (revision, t)))) (r : Except Fault DownloadStats) :
    Runs (downloadToWriter K dl).run tr (.done r) ↔ r = reportBlocks K dl revision t := by
  have hrun : Runs (downloadToWriter K dl).run tr (.done (reportBlocks K dl revision t)) := by
    rw [downloadToWriter_eq, ← List.append_nil tr]
    exact Runs.bindE hdel (.ret _)
  constructor
  · intro h
    exact h.done_unique hrun
  · intro h
    rw [h]
    exact hrun

/-- what is known of a delivered revision: it is signed, and its manifest can be put together -/
theorem deliverBlocks_signed (hdel : Runs (deliverBlocks K dl).run tr (.done (.ok (revision, t)))) :
    ∃ sig payload, revision.manifestSignature = some sig ∧
      manifestOf K (Sorting.sortByKey (·.index) revision.blocks) = .ok payload := by
  obtain ⟨rev, t₁, u₁, rfl, h₁, k₁⟩ := hdel.bindE_ok
  obtain ⟨_, t₂, u₂, rfl, h₂, k₂⟩ := k₁.bindE_ok
  obtain ⟨_, t₃, u₃, rfl, h₃, k₃⟩ := k₂.bindE_ok
  obtain ⟨sk, t₄, u₄, rfl, h₄, k₄⟩ := k₃.bindE_ok
  obtain ⟨t', t₅, u₅, rfl, h₅, k₅⟩ := k₄.bindE_ok
  obtain ⟨flushed, t₆, u₆, rfl, h₆, k₆⟩ := k₅.bindE_ok
  obtain ⟨_, t₇, u₇, rfl, h₇, k₇⟩ := k₆.bindE_ok
  obtain ⟨rfl, heq⟩ := pure_ok k₇
  cases heq
  obtain ⟨sig, hsig⟩ := Option.isSome_iff_exists.mp (require_ok h₃).2
  obtain ⟨bs, hsorted, _⟩ := writeBlocks_ok h₅
  have hmanifest := manifestOf_blocks bs
  rw [hsorted] at hmanifest
  exact ⟨sig, _, hsig, hmanifest⟩

/-- the keys of the signer are not used before the manifest -/
theorem writeBlocks_ordered (pubs : List PublicKey) (sk : SessionKey)
    (blocks : List Download.BlockResponse) (t : Tally) :
    writeBlocks K (dl.ordered pubs) sk blocks t = writeBlocks K dl sk blocks t := by
  induction blocks generalizing t with
  | nil => rfl
  | cons block rest ih =>
    unfold writeBlocks
    simp only [ih]
    rfl

theorem deliverBlocks_ordered (pubs : List PublicKey) :
    deliverBlocks K (dl.ordered pubs) = deliverBlocks K dl := by
  unfold deliverBlocks
  simp only [writeBlocks_ordered]
  rfl

end

/-! ## the check of a signature -/

section
variable (R : RpgpSignatures)

/-- the text can be read as the signature `standalone` -/
def ReadsSignature (sig : String) (standalone : R.StandaloneSignature) : Prop :=
  ∃ binary, toBinaryPgp R.toRpgp (base64OrRaw sig) = .ok binary ∧
    R.signatureFromBytes binary = .ok standalone

def ReadableKey (key : PublicKey) : Prop := Search.Reads (parsePublicKey R) key

/-- the key can be read, and its primary part or a subkey verifies the signature -/
def VerifiedBy (standalone : R.StandaloneSignature) (payload : Bytes) (key : PublicKey) : Prop :=
  Search.Hits (parsePublicKey R) (verifiesWith R standalone payload) key

/-- the signature can be read, and one of the keys that can be read verifies it -/
def ValidSignature (sig : String) (payload : Bytes) (keys : List PublicKey) : Prop :=
  ∃ standalone, ReadsSignature R sig standalone ∧ ∃ key ∈ keys, VerifiedBy R standalone payload key

/-- the search through the keys: it fails at a key that cannot be read -/
def searchKeys (standalone : R.StandaloneSignature) (payload : Bytes) (keys : List PublicKey) :
    Except CryptoError Bool := Search.any (parsePublicKey R) (verifiesWith R standalone payload) keys

variable {R}

theorem ReadsSignature.unique {sig : String} {s s' : R.StandaloneSignature}
    (h : ReadsSignature R sig s) (h' : ReadsSignature R sig s') : s = s' := by
  obtain ⟨binary, hb, hs⟩ := h
  obtain ⟨binary', hb', hs'⟩ := h'
  rw [hb] at hb'
  cases hb'
  rw [hs] at hs'
  cases hs'
  rfl

theorem verifyWithAny_eq (standalone : R.StandaloneSignature) (data : Bytes) (keys : List PublicKey) :
    verifyWithAny R standalone data keys = (searchKeys R standalone data keys).map fun found =>
      if found then .ok else .signatureWrongSigner := by
  unfold searchKeys
  induction keys with
  | nil => rfl
  | cons pubKey rest ih =>
    rw [verifyWithAny, Search.any]
    cases parsePublicKey R pubKey with
    | error e => rfl
    | ok key =>
      show (if verifiesWith R standalone data key then _ else _) = Except.map _ (if _ then _ else _)
      cases verifiesWith R standalone data key with
      | true => rfl
      | false => exact ih

/-- with a key to check it, a signature is checked just if it can be read and the search does not
fail -/
theorem rpgpVerify_ok {data : Bytes} {sig : String} {keys : List PublicKey} (hne : keys ≠ [])
    {found : Bool} :
    (∃ status, rpgpVerify R data (base64OrRaw sig) keys = .ok status ∧
        decide (status = .ok) = found) ↔
      ∃ standalone, ReadsSignature R sig standalone ∧
        searchKeys R standalone data keys = .ok found := by
  have hempty : keys.isEmpty = false := by simpa using hne
  unfold rpgpVerify ReadsSignature
  simp only [hempty, Bool.false_eq_true, if_false, Results.bind_ok, Results.mapError_ok,
    verifyWithAny_eq]
  constructor
  · intro ⟨status, ⟨binary, hbinary, standalone, hstandalone, hsearch⟩, hstatus⟩
    refine ⟨standalone, ⟨binary, hbinary, hstandalone⟩, ?_⟩
    cases hany : searchKeys R standalone data keys with
    | error e =>
      rw [hany] at hsearch
      cases hsearch
    | ok b =>
      rw [hany] at hsearch
      cases hsearch
      rw [← hstatus]
      cases b <;> rfl
  · intro ⟨standalone, ⟨binary, hbinary, hstandalone⟩, hany⟩
    refine ⟨if found then .ok else .signatureWrongSigner,
      ⟨binary, hbinary, standalone, hstandalone, ?_⟩, ?_⟩
    · rw [hany]
      rfl
    · cases found <;> rfl

end

section
variable {K : Crates} {R : RpgpSignatures} {dl : FileDownloader} {blocks : List Download.BlockResponse}
  {sig : String} {payload : Bytes}

theorem verificationKeys_ne {keys : List PublicKey} (h : dl.verificationKeys = .ok keys) :
    keys ≠ [] := by
  unfold FileDownloader.verificationKeys at h
  split at h
  · split at h
    · cases h
    · cases h
      exact List.cons_ne_nil _ _
  · next hne =>
    cases h
    simpa using hne

theorem verifyManifest_ok (hverify : dl.crypto.verify = rpgpVerify R)
    (hpayload : manifestOf K blocks = .ok payload) {verified : Bool} :
    verifyManifest K dl blocks (some sig) = .ok verified ↔ ∃ keys standalone,
      dl.verificationKeys = .ok keys ∧ ReadsSignature R sig standalone ∧
        searchKeys R standalone payload keys = .ok verified := by
  unfold verifyManifest
  simp only [Results.bind_ok, hpayload, Except.ok.injEq, exists_eq_left', hverify]
  refine exists_congr fun keys => ?_
  rw [exists_and_left]
  refine and_congr_right fun hkeys => ?_
  rw [← rpgpVerify_ok (verificationKeys_ne hkeys)]
  cases rpgpVerify R payload (base64OrRaw sig) keys with
  | error e => simp
  | ok status => simp

end

/-! ## the report -/

/-- the run returns `Ok`, and says of the signature whether it is valid -/
def Reported (K : Crates) (dl : FileDownloader) (tr : Trace host) (valid : Prop) : Prop :=
  ∃ stats, Runs (downloadToWriter K dl).run tr (.done (.ok stats)) ∧
    (stats.signatureVerified = true ↔ valid)

section
variable (R : RpgpSignatures) (dl : FileDownloader) (sig : String) (payload : Bytes)

/-- one of the verification keys verifies the signature -/
def Authentic : Prop := ∃ keys, dl.verificationKeys = .ok keys ∧ ValidSignature R sig payload keys

/-- the signature can be read, and each key that cannot comes after one that verifies it -/
def Reportable : Prop := ∃ keys standalone, dl.verificationKeys = .ok keys ∧
  ReadsSignature R sig standalone ∧
  Search.Guarded (parsePublicKey R) (verifiesWith R standalone payload) keys

/-- the signature and all keys can be read -/
def AllReadable : Prop := ∃ keys standalone, dl.verificationKeys = .ok keys ∧
  ReadsSignature R sig standalone ∧ ∀ key ∈ keys, ReadableKey R key

end

section
variable {K : Crates} {R : RpgpSignatures} {dl : FileDownloader} {tr : Trace host}
  {revision : Download.RevisionWithBlocks} {t : Tally} {sig : String} {payload : Bytes}

/-- the orders of the keys of the signer are those of the verification keys -/
theorem ordered_verificationKeys {keys : List PublicKey} (h : dl.verificationKeys = .ok keys) :
    (∀ pubs, pubs.Perm dl.signatureAddressPubs →
      ∃ keys', keys'.Perm keys ∧ (dl.ordered pubs).verificationKeys = .ok keys') ∧
    (∀ keys', keys'.Perm keys →
      ∃ pubs, pubs.Perm dl.signatureAddressPubs ∧ (dl.ordered pubs).verificationKeys = .ok keys') := by
  by_cases hempty : dl.signatureAddressPubs = []
  · have hsame : dl.ordered [] = dl := by
      unfold FileDownloader.ordered
      rw [← hempty]
    have hone : ∃ key, keys = [key] := by
      unfold FileDownloader.verificationKeys at h
      rw [hempty] at h
      simp only [List.isEmpty_nil, if_true] at h
      split at h
      · cases h
      · next pub _ =>
        cases h
        exact ⟨pub, rfl⟩
    obtain ⟨key, rfl⟩ := hone
    rw [hempty]
    constructor
    · intro pubs hpubs
      rw [List.perm_nil.mp hpubs, hsame]
      exact ⟨[key], .refl _, h⟩
    · intro keys' hkeys'
      refine ⟨[], .refl _, ?_⟩
      rw [hsame, List.perm_singleton.mp hkeys']
      exact h
  · have hkeys : ∀ pubs, pubs ≠ [] → (dl.ordered pubs).verificationKeys = .ok pubs := by
      intro pubs hne
      unfold FileDownloader.verificationKeys
      rw [if_neg (by simpa [FileDownloader.ordered] using hne)]
      rfl
    have hsame : dl.signatureAddressPubs = keys := by
      have hown := hkeys _ hempty
      rw [show dl.ordered dl.signatureAddressPubs = dl from rfl, h] at hown
      exact (Except.ok.inj hown).symm
    rw [hsame]
    rw [hsame] at hempty
    have hne : ∀ keys' : List PublicKey, keys'.Perm keys → keys' ≠ [] := by
      intro keys' hperm hnil
      rw [hnil] at hperm
      exact hempty hperm.nil_eq.symm
    constructor
    · intro pubs hpubs
      exact ⟨pubs, hpubs, hkeys pubs (hne pubs hpubs)⟩
    · intro keys' hkeys'
      exact ⟨keys', hkeys', hkeys keys' (hne keys' hkeys')⟩

/-- in which order the keys are tried does not change whether one of them verifies the signature -/
theorem authentic_ordered {pubs : List PublicKey} (hpubs : pubs.Perm dl.signatureAddressPubs)
    {keys : List PublicKey} (hkeys : dl.verificationKeys = .ok keys) :
    Authentic R (dl.ordered pubs) sig payload ↔ Authentic R dl sig payload := by
  obtain ⟨keys', hperm, hkeys'⟩ := (ordered_verificationKeys hkeys).1 pubs hpubs
  have hvalid : ValidSignature R sig payload keys' ↔ ValidSignature R sig payload keys :=
    exists_congr fun standalone => and_congr_right fun _ =>
      exists_congr fun key => and_congr_left fun _ => hperm.mem_iff
  unfold Authentic
  constructor
  · intro ⟨ks, hks, hv⟩
    rw [hkeys'] at hks
    cases hks
    exact ⟨keys, hkeys, hvalid.mp hv⟩
  · intro ⟨ks, hks, hv⟩
    rw [hkeys] at hks
    cases hks
    exact ⟨keys', hkeys', hvalid.mpr hv⟩

theorem searchKeys_readable {keys : List PublicKey} (hall : ∀ key ∈ keys, ReadableKey R key)
    (standalone : R.StandaloneSignature) (payload : Bytes) :
    ∃ verified, searchKeys R standalone payload keys = .ok verified :=
  Search.any_ok.mpr (Search.guarded_of_reads hall)

/-- what the check says of a signature is right whenever it says something -/
theorem searchKeys_authentic {keys : List PublicKey} {standalone : R.StandaloneSignature}
    (hkeys : dl.verificationKeys = .ok keys) (hread : ReadsSignature R sig standalone)
    {verified : Bool} (hsearch : searchKeys R standalone payload keys = .ok verified) :
    verified = true ↔ Authentic R dl sig payload := by
  rw [Search.any_found hsearch]
  constructor
  · intro hhit
    exact ⟨keys, hkeys, standalone, hread, hhit⟩
  · intro ⟨keys', hkeys', standalone', hread', hhit⟩
    rw [hkeys] at hkeys'
    cases hkeys'
    rw [hread.unique hread']
    exact hhit

section
variable (hverify : dl.crypto.verify = rpgpVerify R) (hsig : revision.manifestSignature = some sig)
  (hpayload : manifestOf K (Sorting.sortByKey (·.index) revision.blocks) = .ok payload)
include hverify hsig hpayload

/-- a delivered download that returns `Ok` -/
theorem downloadToWriter_reports
    (hdel : Runs (deliverBlocks K dl).run tr (.done (.ok (revision, t)))) (stats : DownloadStats) :
    Runs (downloadToWriter K dl).run tr (.done (.ok stats)) ↔ ∃ keys standalone verified,
      dl.verificationKeys = .ok keys ∧ ReadsSignature R sig standalone ∧
        searchKeys R standalone payload keys = .ok verified ∧
        stats = statsOf K dl revision t verified := by
  rw [downloadToWriter_delivered hdel]
  unfold reportBlocks
  rw [hsig]
  cases hmanifest : verifyManifest K dl (Sorting.sortByKey (·.index) revision.blocks) (some sig) with
  | error e =>
    constructor
    · intro h
      cases h
    · intro ⟨keys, standalone, verified, hkeys, hread, hsearch, _⟩
      rw [(verifyManifest_ok hverify hpayload).mpr ⟨keys, standalone, hkeys, hread, hsearch⟩]
        at hmanifest
      cases hmanifest
  | ok verified =>
    obtain ⟨keys, standalone, hkeys, hread, hsearch⟩ :=
      (verifyManifest_ok hverify hpayload).mp hmanifest
    constructor
    · intro h
      cases h
      exact ⟨keys, standalone, verified, hkeys, hread, hsearch, rfl⟩
    · intro ⟨keys', standalone', verified', hkeys', hread', hsearch', hstats⟩
      rw [(verifyManifest_ok hverify hpayload).mpr ⟨keys', standalone', hkeys', hread', hsearch'⟩]
        at hmanifest
      cases hmanifest
      rw [hstats]

theorem reported_iff (hdel : Runs (deliverBlocks K dl).run tr (.done (.ok (revision, t)))) :
    Reported K dl tr (Authentic R dl sig payload) ↔ Reportable R dl sig payload := by
  unfold Reported Reportable
  simp only [downloadToWriter_reports hverify hsig hpayload hdel]
  constructor
  · intro ⟨stats, ⟨keys, standalone, verified, hkeys, hread, hsearch, _⟩, _⟩
    exact ⟨keys, standalone, hkeys, hread, Search.any_ok.mp ⟨verified, hsearch⟩⟩
  · intro ⟨keys, standalone, hkeys, hread, hguarded⟩
    obtain ⟨verified, hsearch⟩ := Search.any_ok.mpr hguarded
    exact ⟨statsOf K dl revision t verified, ⟨keys, standalone, verified, hkeys, hread, hsearch, rfl⟩,
      searchKeys_authentic hkeys hread hsearch⟩

/-- one result for all orders of the keys -/
theorem reported_every_order
    (hdel : Runs (deliverBlocks K dl).run tr (.done (.ok (revision, t)))) :
    (∃ stats, (stats.signatureVerified = true ↔ Authentic R dl sig payload) ∧
      ∀ pubs : List PublicKey, pubs.Perm dl.signatureAddressPubs →
        Runs (downloadToWriter K (dl.ordered pubs)).run tr (.done (.ok stats))) ↔
      AllReadable R dl sig := by
  have hordered : ∀ pubs,
      Runs (deliverBlocks K (dl.ordered pubs)).run tr (.done (.ok (revision, t))) := by
    intro pubs
    rw [deliverBlocks_ordered]
    exact hdel
  have hverify' : ∀ pubs, (dl.ordered pubs).crypto.verify = rpgpVerify R := fun pubs => hverify
  have hruns : ∀ pubs stats,
      Runs (downloadToWriter K (dl.ordered pubs)).run tr (.done (.ok stats)) ↔ _ := fun pubs stats =>
    downloadToWriter_reports (hverify' pubs) hsig hpayload (hordered pubs) stats
  constructor
  · intro ⟨stats, _, hevery⟩
    obtain ⟨keys, standalone, _, hkeys, hread, _, _⟩ :=
      (hruns dl.signatureAddressPubs stats).mp (hevery _ (.refl _))
    have hkeys : dl.verificationKeys = .ok keys := hkeys
    suffices hguarded : ∀ keys' : List PublicKey, keys'.Perm keys →
        Search.Guarded (parsePublicKey R) (verifiesWith R standalone payload) keys' from
      ⟨keys, standalone, hkeys, hread, Search.guarded_every_order.mp hguarded⟩
    intro keys' hperm
    obtain ⟨pubs, hpubs, hkeys'⟩ := (ordered_verificationKeys hkeys).2 keys' hperm
    obtain ⟨keys₂, standalone₂, verified₂, hkeys₂, hread₂, hsearch₂, _⟩ :=
      (hruns pubs stats).mp (hevery pubs hpubs)
    rw [hkeys'] at hkeys₂
    cases hkeys₂
    rw [hread.unique hread₂]
    exact Search.any_ok.mp ⟨verified₂, hsearch₂⟩
  · intro ⟨keys, standalone, hkeys, hread, hall⟩
    obtain ⟨verified, hsearch⟩ := searchKeys_readable hall standalone payload
    have hverified := searchKeys_authentic hkeys hread hsearch
    refine ⟨statsOf K dl revision t verified, hverified, fun pubs hpubs => ?_⟩
    obtain ⟨keys', hperm, hkeys'⟩ := (ordered_verificationKeys hkeys).1 pubs hpubs
    have hall' : ∀ key ∈ keys', ReadableKey R key := fun key hkey => hall key (hperm.mem_iff.mp hkey)
    obtain ⟨verified', hsearch'⟩ := searchKeys_readable hall' standalone payload
    have hsame : verified' = verified := by
      rw [Bool.eq_iff_iff, hverified, searchKeys_authentic hkeys' hread hsearch']
      exact authentic_ordered hpubs hkeys
    rw [hruns]
    refine ⟨keys', standalone, verified', hkeys', hread, hsearch', ?_⟩
    rw [hsame]
    rfl

end

/-- a download whose blocks are all written returns `Ok` and says whether a verification key verifies
the signature, just if the signature can be read and each key that cannot comes after one that
verifies it; it does so with one result for every order of the keys just if all of them can be read -/
theorem download_reported (hverify : dl.crypto.verify = rpgpVerify R)
    (hdel : Runs (deliverBlocks K dl).run tr (.done (.ok (revision, t)))) :
    ∃ sig payload, revision.manifestSignature = some sig ∧
      manifestOf K (Sorting.sortByKey (·.index) revision.blocks) = .ok payload ∧
      (Reported K dl tr (Authentic R dl sig payload) ↔ Reportable R dl sig payload) ∧
      ((∃ stats, (stats.signatureVerified = true ↔ Authentic R dl sig payload) ∧
        ∀ pubs : List PublicKey, pubs.Perm dl.signatureAddressPubs →
          Runs (downloadToWriter K (dl.ordered pubs)).run tr (.done (.ok stats))) ↔
        AllReadable R dl sig) := by
  obtain ⟨sig, payload, hsig, hpayload⟩ := deliverBlocks_signed hdel
  exact ⟨sig, payload, hsig, hpayload, reported_iff hverify hsig hpayload hdel,
    reported_every_order hverify hsig hpayload hdel⟩

end

/-! ## a text that is no signature, and a key that is no key -/

/-- a signature is the letter `S`, the name of the signer and what is signed -/
def plainRpgp : RpgpSignatures where
  SignedSecretKey := Unit
  SecretPart := Unit
  EskValues := Unit
  fromArmorSingle _ := .error "no secret keys"
  unlock _ _ := .error "no secret keys"
  fingerprint _ := []
  primaryKey _ := ()
  secretSubkeys _ := []
  dearmor bytes := .ok bytes
  packets _ := []
  decryptSessionKey _ _ _ _ := .error "no secret keys"
  SignedPublicKey := String
  PublicPart := Bytes
  StandaloneSignature := Bytes
  publicFromArmorSingle armored := if armored = "garbage" then .error "no armor" else .ok armored
  publicPrimaryKey key := asBytes key
  publicSubkeys _ := []
  signatureFromBytes
    | 83 :: signed => .ok signed
    | _ => .error "no signature packet"
  verify signed part data := if signed = part ++ data then .ok () else .error "bad signature"

def plainDownloader (pubs : List PublicKey) : FileDownloader :=
  { smallDownloader with
    crypto := { transparentCrypto with verify := rpgpVerify plainRpgp }
    signatureAddressPubs := pubs }

def signerKey : PublicKey := { armored := "addr", fingerprintHex := "addr" }

def garbageKey : PublicKey := { armored := "garbage", fingerprintHex := "" }

/-- the signature of the signer over the manifest of the one block -/
def plainSignature : String := Base64.encode (83 :: (asBytes "addr" ++ smallDigest))

def plainRevision (sig : String) : Json := smallRevision [] [smallBlock 1] sig

def plainCrates (sig : String) : Crates := smallCrates [plainRevision sig]

def plainRun (pubs : List PublicKey) (sig : String) :
    Trace host × Option (Except Fault (Download.RevisionWithBlocks × Tally)) :=
  (smallDownload (plainRevision sig)).play (deliverBlocks (plainCrates sig) (plainDownloader pubs))

/-- what is reported of the delivered blocks with the keys `pubs'`: `none` for an error -/
def plainReport (pubs pubs' : List PublicKey) (sig : String) : Option (Option Bool) :=
  match (plainRun pubs sig).2 with
  | some (.ok (revision, t)) =>
    some ((reportBlocks (plainCrates sig) (plainDownloader pubs') revision t).toOption.map
      (·.signatureVerified))
  | _ => none

theorem plainReport_delivered {pubs pubs' : List PublicKey} {sig : String} {r : Option Bool}
    (h : plainReport pubs pubs' sig = some r) : ∃ revision t,
      Runs (deliverBlocks (plainCrates sig) (plainDownloader pubs)).run (plainRun pubs sig).1
        (.done (.ok (revision, t))) ∧
      (r = none → ∃ e, Runs (downloadToWriter (plainCrates sig) (plainDownloader pubs')).run
        (plainRun pubs sig).1 (.done (.error e))) ∧
      ∀ b, r = some b → ∃ stats, stats.signatureVerified = b ∧
        Runs (downloadToWriter (plainCrates sig) (plainDownloader pubs')).run (plainRun pubs sig).1
          (.done (.ok stats)) := by
  unfold plainReport at h
  split at h
  · next revision t hrun =>
    have hdel := Script.play_runs (R := plainRun pubs sig) rfl hrun
    have hdel' : Runs (deliverBlocks (plainCrates sig) (plainDownloader pubs')).run
        (plainRun pubs sig).1 (.done (.ok (revision, t))) := by
      rw [show plainDownloader pubs' = (plainDownloader pubs).ordered pubs' from rfl,
        deliverBlocks_ordered]
      exact hdel
    refine ⟨revision, t, hdel, ?_, ?_⟩
    · intro hnone
      cases hreport : reportBlocks (plainCrates sig) (plainDownloader pubs') revision t with
      | error e => exact ⟨e, (downloadToWriter_delivered hdel' _).mpr hreport.symm⟩
      | ok stats =>
        rw [hnone, hreport] at h
        cases h
    · intro b hsome
      cases hreport : reportBlocks (plainCrates sig) (plainDownloader pubs') revision t with
      | error e =>
        rw [hsome, hreport] at h
        cases h
      | ok stats =>
        rw [hsome, hreport] at h
        cases h
        exact ⟨stats, rfl, (downloadToWriter_delivered hdel' _).mpr hreport.symm⟩
  · cases h

set_option maxRecDepth 4000 in
theorem plainReport_text : plainReport [signerKey] [signerKey] "x" = some none := by decide +kernel

set_option maxRecDepth 4000 in
theorem plainReport_orders :
    plainReport [signerKey, garbageKey] [signerKey, garbageKey] plainSignature = some (some true) ∧
    plainReport [signerKey, garbageKey] [garbageKey, signerKey] plainSignature = some none := by
  decide +kernel

/-- a signature that is no signature discards a delivered download; so does a key that is no key, if it
is tried before the key that verifies the signature, and not if it is tried after it -/
theorem plainDownload_discarded :
    (∃ tr revision t e,
      Runs (deliverBlocks (plainCrates "x") (plainDownloader [signerKey])).run tr
        (.done (.ok (revision, t))) ∧
      Runs (downloadToWriter (plainCrates "x") (plainDownloader [signerKey])).run tr
        (.done (.error e))) ∧
    ∃ tr revision t stats e,
      Runs (deliverBlocks (plainCrates plainSignature)
        (plainDownloader [signerKey, garbageKey])).run tr (.done (.ok (revision, t))) ∧
      Runs (downloadToWriter (plainCrates plainSignature)
        (plainDownloader [signerKey, garbageKey])).run tr (.done (.ok stats)) ∧
      stats.signatureVerified = true ∧
      Runs (downloadToWriter (plainCrates plainSignature)
        (plainDownloader [garbageKey, signerKey])).run tr (.done (.error e)) := by
  constructor
  · obtain ⟨revision, t, hdel, herror, _⟩ := plainReport_delivered plainReport_text
    obtain ⟨e, hrun⟩ := herror rfl
    exact ⟨_, revision, t, e, hdel, hrun⟩
  · obtain ⟨revision, t, hdel, _, hok⟩ := plainReport_delivered plainReport_orders.1
    obtain ⟨stats, hverified, hrun⟩ := hok true rfl
    obtain ⟨_, _, _, herror, _⟩ := plainReport_delivered plainReport_orders.2
    obtain ⟨e, hrun'⟩ := herror rfl
    exact ⟨_, revision, t, stats, e, hdel, hrun, hverified, hrun'⟩

theorem download_reported_plain : ∃ tr sig payload,
    Reported (plainCrates plainSignature) (plainDownloader [signerKey, garbageKey]) tr
        (Authentic plainRpgp (plainDownloader [signerKey, garbageKey]) sig payload) ↔
      Reportable plainRpgp (plainDownloader [signerKey, garbageKey]) sig payload := by
  obtain ⟨revision, t, hdel, _⟩ := plainReport_delivered plainReport_orders.1
  obtain ⟨sig, payload, _, _, hiff, _⟩ := download_reported (R := plainRpgp) rfl hdel
  exact ⟨_, sig, payload, hiff⟩

end ProtonDrive
