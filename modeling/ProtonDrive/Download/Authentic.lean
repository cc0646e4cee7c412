import ProtonDrive.Core.Scripted
import ProtonDrive.Download.Steps
import ProtonDrive.Lib.Results

/-!
# Authentic downloads

The server chooses the revision, the blocks, their hashes and every answer of the storage.  If a
download returns `Ok` with a verified signature, then a holder of a verification key signed the list
of the digests of exactly the ciphertexts that were fetched, in their order, and exactly their
decryptions were written (`downloadToWriter_authentic`).

A digest has 32 bytes, so a signed payload can be cut into digests in one way only
(`digestsOf_injective`).
-/

set_option linter.unusedVariables false

namespace ProtonDrive
open Encoding Effects Api

section
variable {K : Crates}

/-- the digests of the ciphertexts, one after the other -/
def digestsOf (K : Crates) (ciphertexts : List Bytes) : Bytes :=
  ciphertexts.flatMap fun c => (K.sha256 c).1

/-- digests have one length, so their concatenation determines the list -/
theorem digestsOf_injective {Seen : Bytes → Prop}
    (hinj : ∀ c c', Seen c → Seen c' → K.sha256 c = K.sha256 c' → c = c') {cs cs' : List Bytes}
    (hcs : ∀ c ∈ cs, Seen c) (hcs' : ∀ c ∈ cs', Seen c) (h : digestsOf K cs = digestsOf K cs') :
    cs = cs' := by
  induction cs generalizing cs' with
  | nil =>
    cases cs' with
    | nil => rfl
    | cons c' cs' =>
      have hlen := congrArg List.length h
      simp only [digestsOf, List.flatMap_nil, List.flatMap_cons, List.length_append,
        List.length_nil, (K.sha256 c').2] at hlen
      omega
  | cons c cs ih =>
    cases cs' with
    | nil =>
      have hlen := congrArg List.length h
      simp only [digestsOf, List.flatMap_nil, List.flatMap_cons, List.length_append,
        List.length_nil, (K.sha256 c).2] at hlen
      omega
    | cons c' cs' =>
      simp only [digestsOf, List.flatMap_cons] at h
      have hwidth : (K.sha256 c).1.length = (K.sha256 c').1.length := by
        rw [(K.sha256 c).2, (K.sha256 c').2]
      obtain ⟨hd, hrest⟩ := List.append_inj h hwidth
      obtain rfl : c = c' := hinj c c' (hcs c List.mem_cons_self) (hcs' c' List.mem_cons_self)
        (Subtype.ext hd)
      rw [ih (fun x hx => hcs x (List.mem_cons_of_mem _ hx))
        (fun x hx => hcs' x (List.mem_cons_of_mem _ hx)) hrest]

variable {dl : FileDownloader} {tr : Trace host} {stats : DownloadStats}

def DeliveredFile.ciphertexts (f : DeliveredFile K dl tr stats) : List Bytes :=
  f.blocks.map (·.ciphertext)

/-- the payload whose signature was checked is made of the digests of the ciphertexts -/
theorem DeliveredFile.verify_eq (f : DeliveredFile K dl tr stats) :
    ∃ keys status, dl.verificationKeys = .ok keys ∧
      dl.crypto.verify (digestsOf K f.ciphertexts) (base64OrRaw f.signature) keys = .ok status ∧
      stats.signatureVerified = decide (status = .ok) := by
  have hpayload : (f.blocks.flatMap fun b => (K.sha256 b.ciphertext).1) =
      digestsOf K f.ciphertexts := by
    unfold digestsOf ciphertexts
    rw [List.flatMap_map]
  have hverified := f.verified
  unfold verifyManifest at hverified
  simp only [manifestOf_blocks, hpayload] at hverified
  cases hkeys : dl.verificationKeys with
  | error e =>
    rw [hkeys] at hverified
    cases hverified
  | ok keys =>
    rw [hkeys] at hverified
    cases hstatus : dl.crypto.verify (digestsOf K f.ciphertexts) (base64OrRaw f.signature) keys with
    | error e =>
      simp only [bind, Except.bind, hstatus] at hverified
      cases hverified
    | ok status =>
      simp only [bind, Except.bind, hstatus, Except.ok.injEq] at hverified
      exact ⟨keys, status, rfl, hstatus, hverified.symm⟩

/-- `SignedBy key payload`: the holder of `key` has signed `payload`; `Seen` are the ciphertexts on
which the digest is injective -/
theorem downloadToWriter_authentic {SignedBy : PublicKey → Bytes → Prop} {Seen : Bytes → Prop}
    (hunforgeable : ∀ payload sig keys, dl.crypto.verify payload sig keys = .ok .ok →
      ∃ key ∈ keys, SignedBy key payload)
    (hinjective : ∀ c c', Seen c → Seen c' → K.sha256 c = K.sha256 c' → c = c')
    (h : Runs (downloadToWriter K dl).run tr (.done (.ok stats)))
    (hseen : ∀ post ∈ blobs tr, ∀ resp, post.2 = .ok resp → Seen resp.body)
    (hverified : stats.signatureVerified = true) :
    ∃ (f : DeliveredFile K dl tr stats) (keys : List PublicKey) (key : PublicKey),
      dl.verificationKeys = .ok keys ∧ key ∈ keys ∧ SignedBy key (digestsOf K f.ciphertexts) ∧
      blobs tr = f.blocks.map (·.fetch) ∧ written tr = f.blocks.flatMap (·.plaintext) ∧
      ∀ signed : List Bytes, (∀ c ∈ signed, Seen c) →
        digestsOf K signed = digestsOf K f.ciphertexts → signed = f.ciphertexts := by
  obtain ⟨f⟩ := downloadToWriter_ok h
  obtain ⟨keys, status, hkeys, hverify, hstatus⟩ := f.verify_eq
  obtain rfl : status = .ok := of_decide_eq_true (hstatus ▸ hverified)
  obtain ⟨key, hkey, hsigned⟩ := hunforgeable _ _ _ hverify
  have hall : ∀ c ∈ f.ciphertexts, Seen c := by
    intro c hc
    obtain ⟨b, hb, rfl⟩ := List.mem_map.mp hc
    refine hseen b.fetch ?_ b.resp rfl
    rw [f.fetched]
    exact List.mem_map_of_mem hb
  exact ⟨f, keys, key, hkeys, hkey, hsigned, f.fetched, f.wrote,
    fun signed hs heq => digestsOf_injective hinjective hs hall heq⟩

end

/-! ## deliveries of the small download -/

theorem smallDownloader_key (r : Download.RevisionWithBlocks) :
    contentSessionKey smallDownloader r = .ok smallKey := by
  have hpair : sameFingerprint smallNodeKey { armored := "node", fingerprintHex := "node" } := rfl
  have hopen : Transparent.decryptSessionKey (Transparent.encrypt [] smallKey
      [{ armored := "node", fingerprintHex := "node" }]) [smallNodeKey] = .ok smallKey :=
    Transparent.decryptSessionKey_encrypt (List.mem_singleton.mpr rfl) hpair
  exact contentSessionKey_encoded rfl hopen

/-- any blocks of the small download, each answered with `smallCiphertext` -/
def smallDelivery {D : List Json} (hdocs : (D.map textOf).Nodup) {thumbnails : List Json}
    {blocks : List Download.BlockResponse} {signature : String}
    (hmem : smallRevision thumbnails blocks signature ∈ D) (hplain : ∀ b ∈ blocks, Plain b)
    (hhash : ∀ b ∈ blocks, b.hash = Base64.encode smallDigest) :
    Delivery (smallCrates D) smallDownloader (smallRecord blocks signature) where
  resp := { status := 200, headers := [], body := textOf (smallRevision thumbnails blocks signature) }
  sessionKey := smallKey
  blocks := (Sorting.sortByKey (·.index) blocks).attach.map fun b =>
    { block := b.1
      resp := { status := 200, headers := [], body := smallCiphertext }
      plaintext := [65]
      status := .noSignature
      hash := by
        rw [hhash b.1 ((Sorting.mem_sortByKey _).mp b.2)]
        rfl
      decrypted := rfl }
  answered := smallCrates_envelopes hdocs hmem (smallRevision_read thumbnails hplain signature)
  key := smallDownloader_key _
  sorted := by
    rw [List.map_map]
    exact List.attach_map_subtype_val _

/-- the verdict on a signature of the address key -/
theorem smallSignature_checked {D : List Json} {blocks : List Download.BlockResponse} {payload : Bytes}
    (h : manifestOf (smallCrates D) blocks = .ok payload) (signed : Bytes) :
    verifyManifest (smallCrates D) smallDownloader blocks (some (smallSignature signed)) =
      .ok (decide (signed = payload)) := by
  have hkeys : smallDownloader.verificationKeys =
      .ok [{ armored := "addr", fingerprintHex := "addr" }] := rfl
  have hcrypto : smallDownloader.crypto = transparentCrypto := rfl
  have hverdict : Transparent.verify payload
      (Transparent.Signature.bytes { signer := asBytes "addr", data := signed })
      [{ armored := "addr", fingerprintHex := "addr" }] =
      .ok (if signed = payload then .ok else .signatureInvalid) :=
    Transparent.verify_listed ⟨_, List.mem_singleton.mpr rfl, rfl⟩
  unfold verifyManifest smallSignature
  simp only [h, hkeys, hcrypto, bind, Except.bind, base64OrRaw_armor, Transparent.verify_eq,
    Transparent.verify_armor, hverdict]
  by_cases hsame : signed = payload
  · simp [hsame]
  · simp [hsame]

/-! ## an authentic download of two blocks -/

/-- the second ciphertext, of "B" -/
def otherCiphertext : Bytes := Transparent.encrypt [66] smallKey []

/-- the digests are those of the two ciphertexts, and of "AB" -/
def pairCrates (docs : List Json) : Crates :=
  { smallCrates docs with
    sha256 := fun c =>
      if c = otherCiphertext then
        ⟨[12, 243, 169, 162, 128, 91, 247, 42, 238, 22, 66, 166, 167, 190, 156, 38, 183, 59, 174,
          176, 116, 37, 50, 165, 222, 212, 118, 240, 141, 132, 96, 107], rfl⟩
      else (smallCrates docs).sha256 c
    sha1 := fun _ => ⟨[6, 217, 69, 148, 42, 162, 106, 97, 190, 24, 195, 226, 43, 241, 155, 188,
      168, 221, 43, 93], rfl⟩ }

theorem pairCrates_envelopes {D : List Json} (hdocs : (D.map textOf).Nodup) {j : Json} (hj : j ∈ D)
    {α : Type} {dec : Json → Option α} {a : α}
    (hdec : ResponseEnvelope.ofJson dec j = some { code := CODE_OK, inner := a, error := none }) :
    (pairCrates D).Envelopes dec (textOf j) a := by
  obtain ⟨error, henv⟩ := smallCrates_envelopes hdocs hj hdec
  exact ⟨error, henv⟩

def pairPayload : Bytes := digestsOf (pairCrates []) [smallCiphertext, otherCiphertext]

/-- the only signature that was made, by the address key -/
def pairSigned : Transparent.Signature := { signer := asBytes "addr", data := pairPayload }

def SignedPair (key : PublicKey) (payload : Bytes) : Prop :=
  key.fingerprintHex = "addr" ∧ payload = pairPayload

/-- the transparent crypto, where no other signature exists -/
def pairCrypto : OpenPgpCrypto :=
  { transparentCrypto with
    verify := fun payload sig keys =>
      if Transparent.packetsOf .signature sig = pairSigned.bytes then
        Transparent.verify payload pairSigned.bytes keys
      else .error (.verify "not a signature") }

theorem pairCrypto_unforgeable (payload sig : Bytes) (keys : List PublicKey)
    (h : pairCrypto.verify payload sig keys = .ok .ok) : ∃ key ∈ keys, SignedPair key payload := by
  change (if _ then Transparent.verify payload pairSigned.bytes keys else _) = _ at h
  split at h
  · unfold Transparent.verify at h
    simp only [Transparent.packetsOf_signature, Transparent.Signature.ofBytes_bytes] at h
    split at h
    · cases h
    · next hany =>
      obtain ⟨key, hkey, hsigner⟩ := List.any_eq_true.mp (not_not.mp hany)
      split at h
      · next hdata => exact ⟨key, hkey, asBytes_injective (of_decide_eq_true hsigner), hdata.symm⟩
      · cases h
  · cases h

def InPair (c : Bytes) : Prop := c ∈ [smallCiphertext, otherCiphertext]

theorem pairCrates_injective {docs : List Json} (c c' : Bytes) (hc : InPair c) (hc' : InPair c')
    (h : (pairCrates docs).sha256 c = (pairCrates docs).sha256 c') : c = c' := by
  have hdistinct : (pairCrates []).sha256 smallCiphertext ≠ (pairCrates []).sha256 otherCiphertext := by
    decide
  simp only [InPair, List.mem_cons, List.not_mem_nil, or_false] at hc hc'
  rcases hc with rfl | rfl <;> rcases hc' with rfl | rfl
  · rfl
  · exact absurd h hdistinct
  · exact absurd h.symm hdistinct
  · rfl

/-- the second block stands first in the list -/
def pairBlocks : List Download.BlockResponse :=
  [{ index := 2, bareUrl := "second", token := "u",
     hash := Base64.encode ((pairCrates []).sha256 otherCiphertext).1, encryptedSignature := none, size := 0 },
   { index := 1, bareUrl := "first", token := "t",
     hash := Base64.encode ((pairCrates []).sha256 smallCiphertext).1, encryptedSignature := none, size := 0 }]

def pairRevision : Json := smallRevision [] pairBlocks (smallSignature pairPayload)

def pairServer : Script :=
  { smallDownload pairRevision with
    blob := fun req =>
      { status := 200, headers := [],
        body := if req.path = "second" then otherCiphertext else smallCiphertext } }

def pairDownloader : FileDownloader := { smallDownloader with crypto := pairCrypto }

def pairRun : Trace host × Option (Except Fault DownloadStats) :=
  pairServer.play (downloadToWriter (pairCrates [pairRevision]) pairDownloader)

/-- the run ended with a verified signature after it had fetched no other ciphertexts, and it wrote "AB" -/
def endsVerified (run : Trace host × Option (Except Fault DownloadStats)) : Bool :=
  (run.2.bind Except.toOption).any fun stats => stats.signatureVerified && written run.1 == [65, 66] &&
    (blobs run.1).all fun post =>
      post.2.toOption.all fun resp => resp.body == smallCiphertext || resp.body == otherCiphertext

theorem endsVerified_spec {run : Trace host × Option (Except Fault DownloadStats)}
    (h : endsVerified run = true) : ∃ stats, run.2 = some (.ok stats) ∧
      stats.signatureVerified = true ∧ written run.1 = [65, 66] ∧
      ∀ post ∈ blobs run.1, ∀ resp, post.2 = .ok resp → InPair resp.body := by
  obtain ⟨stats, hstats, h⟩ := (Option.any_eq_true _ _).mp h
  obtain ⟨r, hrun, hr⟩ := Option.bind_eq_some_iff.mp hstats
  rw [Results.toOption_some.mp hr] at hrun
  obtain ⟨hchecked, hbodies⟩ := Bool.and_eq_true_iff.mp h
  obtain ⟨hverified, hwritten⟩ := Bool.and_eq_true_iff.mp hchecked
  refine ⟨stats, hrun, hverified, beq_iff_eq.mp hwritten, fun post hpost resp hresp => ?_⟩
  have hbody := List.all_eq_true.mp hbodies post hpost
  rw [hresp] at hbody
  have hbody : (resp.body == smallCiphertext || resp.body == otherCiphertext) = true := hbody
  rcases Bool.or_eq_true_iff.mp hbody with hbody | hbody
  · exact beq_iff_eq.mp hbody ▸ List.mem_cons_self
  · exact beq_iff_eq.mp hbody ▸ List.mem_cons_of_mem _ List.mem_cons_self

set_option maxRecDepth 4000 in
theorem pairRun_ends : endsVerified pairRun = true := by decide +kernel

theorem pairRun_authentic :
    ∃ stats, ∃ f : DeliveredFile (pairCrates [pairRevision]) pairDownloader pairRun.1 stats,
      stats.signatureVerified = true ∧
      ∃ key, SignedPair key (digestsOf (pairCrates [pairRevision]) f.ciphertexts) ∧
        f.ciphertexts = [smallCiphertext, otherCiphertext] ∧
        written pairRun.1 = f.blocks.flatMap (·.plaintext) := by
  obtain ⟨stats, hok, hverified, _, hseen⟩ := endsVerified_spec pairRun_ends
  have hforge : ∀ payload sig keys, pairDownloader.crypto.verify payload sig keys = .ok .ok →
      ∃ key ∈ keys, SignedPair key payload := pairCrypto_unforgeable
  obtain ⟨f, _, key, _, _, hsigned, _, hwrote, hunique⟩ := downloadToWriter_authentic hforge
    pairCrates_injective (Script.play_runs (R := pairRun) rfl hok) hseen hverified
  have hpair : [smallCiphertext, otherCiphertext] = f.ciphertexts :=
    hunique _ (fun _ hc => hc) hsigned.2.symm
  exact ⟨stats, f, hverified, key, hsigned, hpair.symm, hwrote⟩

end ProtonDrive
