import ProtonDrive.Account.Recipients
import ProtonDrive.Core.Transparent

/-!
# Session keys wrapped for a recipient

The writer encrypts a session key to one part of the key of the recipient, its first subkey; the reader
tries all parts of all keys.

* `Wrapping`             the parts of keys that can be encrypted to, the secret parts that open what is
                         encrypted to them, and the packets of encrypted session keys;
* `KeyPair`              the parts of a private key open what is encrypted to those of a public key;
* `Delivered`            a message is made, it is addressed to a part of the recipient that can be
                         encrypted to, and the private key gives its session key back;
* `wrap_delivered`       for which keys and session keys this is so.
-/

set_option linter.unusedVariables false

namespace ProtonDrive
open Encoding

/-! ## the numbers of the algorithms -/

/-- the algorithms that have a name -/
def namedAlgorithms : List Nat := [0, 1, 2, 3, 4, 7, 8, 9, 10, 11, 12, 13]

/-- the number of an algorithm comes back just if the algorithm has a name -/
theorem symAlgId_parseSymAlg (id : Nat) : symAlgId (parseSymAlg id) = id ↔ id ∈ namedAlgorithms := by
  unfold parseSymAlg namedAlgorithms
  split
  case h_13 =>
    show 9 = id ↔ _
    simp only [imp_false, List.mem_cons, List.not_mem_nil, or_false] at *
    omega
  all_goals exact iff_of_true rfl (by decide)

/-! ## the library -/

/-- what is assumed of the library: an encrypted session key is made just for the parts that can be
encrypted to, it is written as a packet, and read as one in front of whatever follows; a secret part
that belongs to the part opens it, no other one does, and what comes out is what was put in -/
structure Wrapping (W : RpgpWriter) where
  Capable : W.PublicPart → Prop
  Opens : W.SecretPart → (password : String) → W.PublicPart → Prop
  /-- the algorithms of the session keys that are handed out -/
  Accepts : SymmetricKeyAlgorithm → Prop
  creates : ∀ c data symAlg part,
    (∃ pkesk, W.fromSessionKeyV3 c data symAlg part = .ok pkesk) ↔ Capable part
  writes : ∀ {c data symAlg part pkesk}, W.fromSessionKeyV3 c data symAlg part = .ok pkesk →
    ∃ b rest, W.writeSessionKey pkesk = .ok (b :: rest) ∧ 128 ≤ b.toNat
  reads : ∀ {c data id part pkesk written}, id < 256 →
    W.fromSessionKeyV3 c data (parseSymAlg id) part = .ok pkesk →
    W.writeSessionKey pkesk = .ok written → ∃ values,
      (∀ behind, ∃ others, (behind = [] → others = []) ∧ W.packets (written ++ behind) =
        .ok (.publicKeyEncryptedSessionKey (.ok values) .v3) :: others) ∧
      ∀ secret password opened, W.decryptSessionKey secret password values .v34 = .ok (.ok opened) ↔
        Opens secret password part ∧ Accepts (parseSymAlg id) ∧ opened = .v34 data (parseSymAlg id)

section
variable {W : RpgpWriter} (L : Wrapping W)

/-- the private key can be read, and its parts belong to those of the public key -/
def KeyPair (priv : PrivateKey) (key : W.SignedPublicKey) : Prop :=
  ∃ sec, W.fromArmorSingle priv.armored = .ok sec ∧
    L.Opens (W.primaryKey sec) priv.passphrase (W.publicPrimaryKey key) ∧
    List.Forall₂ (fun secret part => L.Opens secret priv.passphrase part) (W.secretSubkeys sec)
      (W.publicSubkeys key)

/-- the message begins with an encrypted session key for the part -/
def AddressedTo (message : Bytes) (part : W.PublicPart) : Prop :=
  ∃ c data symAlg pkesk written behind, W.fromSessionKeyV3 c data symAlg part = .ok pkesk ∧
    W.writeSessionKey pkesk = .ok written ∧ message = written ++ behind

/-- the private key gives the session key back, alone or among other keys that can be read -/
def GivesBack (message : Bytes) (priv : PrivateKey) (sk : SessionKey) : Prop :=
  ∀ keys : List PrivateKey, priv ∈ keys →
    (∀ k ∈ keys, ∃ sec, W.fromArmorSingle k.armored = .ok sec) →
    ∃ out, rpgpDecryptSessionKey W.toRpgp message keys = .ok out ∧ out.data = sk.data ∧
      out.cipherAlgorithm = sk.cipherAlgorithm

/-- what is made for the recipient -/
def Delivered (made : Except CryptoError Bytes) (key : W.SignedPublicKey) (priv : PrivateKey)
    (sk : SessionKey) : Prop :=
  ∃ message, made = .ok message ∧
    (∃ part ∈ publicParts W.toRpgpSignatures key, L.Capable part ∧ AddressedTo message part) ∧
    GivesBack (W := W) message priv sk

/-- the inner message can be protected with the session key -/
def Protectable (W : RpgpWriter) (sk : SessionKey) (innerBytes : Bytes) (c : Coins) : Prop :=
  ∃ seipd written,
    W.encryptSeipdv1 c (parseSymAlg sk.cipherAlgorithm) sk.data innerBytes = .ok seipd ∧
      W.writeProtected seipd = .ok written

/-- the session key is delivered to the recipient on its own, with a message, and with a signed one,
for all data and all random bits -/
structure WrapsFor (pub : PublicKey) (key : W.SignedPublicKey) (priv : PrivateKey)
    (sk : SessionKey) : Prop where
  sessionKey : ∀ c, Delivered L (rpgpEncryptSessionKey W sk [pub] c) key priv sk
  message : ∀ data opts c innerBytes, opts.enableAeadWithEncryptionKeys = false →
    W.literalMessage data c = .ok innerBytes → Protectable W sk innerBytes (W.nextCoins c) →
    Delivered L (rpgpEncrypt W data sk [pub] opts c) key priv sk
  signedMessage : ∀ data (signer : PrivateKey) sec opts c innerBytes,
    opts.enableAeadWithEncryptionKeys = false → W.fromArmorSingle signer.armored = .ok sec →
    W.signedMessage data (W.primaryKey sec) signer.passphrase c = .ok innerBytes →
    Protectable W sk innerBytes (W.nextCoins c) →
    Delivered L (rpgpEncryptAndSign W data sk [pub] signer opts c) key priv sk

end

/-! ## the part that is written to -/

section
variable {W : RpgpWriter} {L : Wrapping W} {pub : PublicKey} {key : W.SignedPublicKey}
  {priv : PrivateKey} {sk : SessionKey} {c : Coins} {symAlg : SymmetricKeyAlgorithm}

/-- the first subkey, or the primary part if there is none -/
def wrappedPart (W : RpgpWriter) (key : W.SignedPublicKey) : W.PublicPart :=
  (W.publicSubkeys key).head?.getD (W.publicPrimaryKey key)

theorem wrappedPart_mem : wrappedPart W key ∈ publicParts W.toRpgpSignatures key := by
  unfold wrappedPart publicParts
  cases W.publicSubkeys key with
  | nil => exact List.mem_cons_self
  | cons subkey rest => exact List.mem_cons_of_mem _ List.mem_cons_self

/-- the private key has a part for the one that is written to -/
theorem KeyPair.opens_wrapped (h : KeyPair L priv key) : ∃ sec,
    W.fromArmorSingle priv.armored = .ok sec ∧
    ∃ secret ∈ W.primaryKey sec :: W.secretSubkeys sec,
      L.Opens secret priv.passphrase (wrappedPart W key) := by
  obtain ⟨sec, hsec, hprimary, hsubkeys⟩ := h
  refine ⟨sec, hsec, ?_⟩
  unfold wrappedPart
  cases hkeys : W.publicSubkeys key with
  | nil => exact ⟨_, List.mem_cons_self, hprimary⟩
  | cons subkey rest =>
    rw [hkeys] at hsubkeys
    cases hsecrets : W.secretSubkeys sec with
    | nil =>
      rw [hsecrets] at hsubkeys
      cases hsubkeys
    | cons secret secrets =>
      rw [hsecrets] at hsubkeys
      obtain ⟨hfirst, _⟩ := List.forall₂_cons.mp hsubkeys
      exact ⟨secret, List.mem_cons_of_mem _ List.mem_cons_self, hfirst⟩

theorem writePkesk_eq (out : Bytes) : writePkesk W c sk symAlg key out = (do
    let pkesk ← (W.fromSessionKeyV3 c sk.data symAlg (wrappedPart W key)).mapError .encrypt
    let written ← (W.writeSessionKey pkesk).mapError .encrypt
    return out ++ written) := by
  unfold writePkesk wrappedPart
  cases (W.publicSubkeys key).head? <;> rfl

theorem writePkesk_ok {out out' : Bytes} : writePkesk W c sk symAlg key out = .ok out' ↔
    ∃ pkesk written, W.fromSessionKeyV3 c sk.data symAlg (wrappedPart W key) = .ok pkesk ∧
      W.writeSessionKey pkesk = .ok written ∧ out' = out ++ written := by
  rw [writePkesk_eq]
  simp only [Results.bind_ok, Results.mapError_ok]
  constructor
  · intro ⟨pkesk, hpkesk, written, hwritten, hout⟩
    exact ⟨pkesk, written, hpkesk, hwritten, (Except.ok.inj hout).symm⟩
  · intro ⟨pkesk, written, hpkesk, hwritten, hout⟩
    refine ⟨pkesk, hpkesk, written, hwritten, ?_⟩
    rw [hout]
    rfl

/-- for one recipient one encrypted session key is written -/
theorem writePkesks_one (hkey : W.publicFromArmorSingle pub.armored = .ok key) :
    writePkesks W sk symAlg [pub] c [] = writePkesk W c sk symAlg key [] := by
  have hparse : parsePublicKey W.toRpgpSignatures pub = .ok key := by
    unfold parsePublicKey
    rw [hkey]
    rfl
  rw [writePkesks, hparse]
  show (writePkesk W c sk symAlg key [] >>= fun out => writePkesks W sk symAlg [] _ out) = _
  cases writePkesk W c sk symAlg key [] <;> rfl

end

/-! ## reading it back -/

section
variable {W : RpgpWriter} {L : Wrapping W} {part : W.PublicPart} {sk : SessionKey} {c : Coins}
  {pkesk : W.PublicKeyEncryptedSessionKey} {written behind : Bytes} {keys : List PrivateKey}

/-- what is left of a session key that was wrapped -/
def unwrapped (sk : SessionKey) : SessionKey :=
  plainToSessionKey (.v34 sk.data (parseSymAlg sk.cipherAlgorithm))

/-- a packet is not armored -/
theorem toBinaryPgp_written (L : Wrapping W)
    (hpkesk : W.fromSessionKeyV3 c sk.data (parseSymAlg sk.cipherAlgorithm) part = .ok pkesk)
    (hwritten : W.writeSessionKey pkesk = .ok written) (behind : Bytes) :
    toBinaryPgp W.toRpgp (written ++ behind) = .ok (written ++ behind) := by
  obtain ⟨b, rest, hbytes, hhigh⟩ := L.writes hpkesk
  rw [hwritten] at hbytes
  cases hbytes
  have hne : ∀ n : UInt8, n.toNat < 128 → b ≠ n := by
    intro n hn heq
    rw [heq] at hhigh
    omega
  have hspace : isAsciiWhitespace b = false := by
    unfold isAsciiWhitespace
    simp [hne 32 (by decide), hne 9 (by decide), hne 10 (by decide), hne 12 (by decide),
      hne 13 (by decide)]
  exact toBinaryPgp_plain W.toRpgp (rest ++ behind) hspace (hne 45 (by decide))

section
variable (hbyte : sk.cipherAlgorithm < 256)
  (hpkesk : W.fromSessionKeyV3 c sk.data (parseSymAlg sk.cipherAlgorithm) part = .ok pkesk)
  (hwritten : W.writeSessionKey pkesk = .ok written)
  (hparse : ∀ k ∈ keys, ∃ sec, W.fromArmorSingle k.armored = .ok sec)
include L hbyte hpkesk hwritten hparse

/-- a key with a secret part for the one that was written to gives the session key back -/
theorem decrypt_wrapped (haccepts : L.Accepts (parseSymAlg sk.cipherAlgorithm)) {k : PrivateKey}
    {sec : W.SignedSecretKey} {secret : W.SecretPart} (hk : k ∈ keys)
    (hsec : W.fromArmorSingle k.armored = .ok sec)
    (hsecret : secret ∈ W.primaryKey sec :: W.secretSubkeys sec)
    (hopens : L.Opens secret k.passphrase part) (behind : Bytes) :
    rpgpDecryptSessionKey W.toRpgp (written ++ behind) keys = .ok (unwrapped sk) := by
  obtain ⟨values, hpackets, hdecrypt⟩ := L.reads hbyte hpkesk hwritten
  obtain ⟨others, _, hfirst⟩ := hpackets behind
  obtain ⟨found, hfound, hiff⟩ := openWithAny_spec hparse values .v34
  have hsome : found.isSome :=
    hiff.mpr ⟨k, hk, sec, hsec, openWith_isSome hsecret
      ((hdecrypt _ _ _).mpr ⟨hopens, haccepts, rfl⟩)⟩
  obtain ⟨out, rfl⟩ := Option.isSome_iff_exists.mp hsome
  obtain ⟨_, _, plain, hplain, rfl⟩ := openWithAny_found hfound
  obtain ⟨_, _, rfl⟩ := (hdecrypt _ _ _).mp hplain
  unfold rpgpDecryptSessionKey
  rw [toBinaryPgp_written L hpkesk hwritten behind]
  show tryPackets W.toRpgp keys (W.packets (written ++ behind)) = _
  rw [hfirst, tryPackets_pkesk values others rfl hfound]
  rfl

/-- nothing else comes out of the packet -/
theorem decrypt_wrapped_unique {out : SessionKey}
    (hout : rpgpDecryptSessionKey W.toRpgp written keys = .ok out) :
    L.Accepts (parseSymAlg sk.cipherAlgorithm) ∧ out = unwrapped sk := by
  obtain ⟨values, hpackets, hdecrypt⟩ := L.reads hbyte hpkesk hwritten
  obtain ⟨others, hothers, hfirst⟩ := hpackets []
  obtain ⟨found, hfound, _⟩ := openWithAny_spec hparse values .v34
  have hbinary := toBinaryPgp_written L hpkesk hwritten []
  rw [List.append_nil] at hbinary hfirst
  unfold rpgpDecryptSessionKey at hout
  rw [hbinary] at hout
  have hout : tryPackets W.toRpgp keys (W.packets written) = .ok out := hout
  rw [hfirst, hothers rfl, tryPackets_pkesk values [] rfl hfound] at hout
  cases found with
  | none => cases hout
  | some opened =>
    cases hout
    obtain ⟨_, _, plain, hplain, heq⟩ := openWithAny_found hfound
    obtain ⟨_, haccepts, hplain⟩ := (hdecrypt _ _ _).mp hplain
    rw [heq, hplain]
    exact ⟨haccepts, rfl⟩

end

theorem unwrapped_data : (unwrapped sk).data = sk.data := rfl

theorem unwrapped_cipherAlgorithm :
    (unwrapped sk).cipherAlgorithm = sk.cipherAlgorithm ↔ sk.cipherAlgorithm ∈ namedAlgorithms :=
  symAlgId_parseSymAlg sk.cipherAlgorithm

end

/-! ## the round trip -/

section
variable {W : RpgpWriter} {L : Wrapping W} {pub : PublicKey} {key : W.SignedPublicKey}
  {priv : PrivateKey} {sk : SessionKey}

/-- the part that is written to can be encrypted to -/
def WritesCapable (L : Wrapping W) (key : W.SignedPublicKey) : Prop :=
  (∃ subkey rest, W.publicSubkeys key = subkey :: rest ∧ L.Capable subkey) ∨
    W.publicSubkeys key = [] ∧ L.Capable (W.publicPrimaryKey key)

theorem capable_wrappedPart : L.Capable (wrappedPart W key) ↔ WritesCapable L key := by
  unfold wrappedPart WritesCapable
  cases W.publicSubkeys key with
  | nil => simp
  | cons subkey rest => simp

/-- what begins with the packet for the recipient is delivered -/
theorem delivered_written (hbyte : sk.cipherAlgorithm < 256) (hpair : KeyPair L priv key)
    (hnamed : sk.cipherAlgorithm ∈ namedAlgorithms)
    (haccepts : L.Accepts (parseSymAlg sk.cipherAlgorithm)) {c : Coins}
    {pkesk : W.PublicKeyEncryptedSessionKey} {written : Bytes}
    (hpkesk : W.fromSessionKeyV3 c sk.data (parseSymAlg sk.cipherAlgorithm) (wrappedPart W key) =
      .ok pkesk)
    (hwritten : W.writeSessionKey pkesk = .ok written) (behind : Bytes) :
    Delivered L (.ok (written ++ behind)) key priv sk := by
  have hcapable : L.Capable (wrappedPart W key) := (L.creates _ _ _ _).mp ⟨pkesk, hpkesk⟩
  have haddressed : AddressedTo (W := W) (written ++ behind) (wrappedPart W key) :=
    ⟨c, sk.data, _, pkesk, written, behind, hpkesk, hwritten, rfl⟩
  refine ⟨_, rfl, ⟨_, wrappedPart_mem, hcapable, haddressed⟩, fun keys hmem hparse => ?_⟩
  obtain ⟨sec, hsec, secret, hsecret, hopens⟩ := hpair.opens_wrapped
  exact ⟨unwrapped sk, decrypt_wrapped hbyte hpkesk hwritten hparse haccepts hmem hsec hsecret hopens
    behind, unwrapped_data, unwrapped_cipherAlgorithm.mpr hnamed⟩

/-- with a part that can be encrypted to, the loop over the one recipient writes its packet -/
theorem writePkesks_capable (sk : SessionKey) (hkey : W.publicFromArmorSingle pub.armored = .ok key)
    (hcapable : WritesCapable L key) (c : Coins) : ∃ pkesk written,
      W.fromSessionKeyV3 c sk.data (parseSymAlg sk.cipherAlgorithm) (wrappedPart W key) = .ok pkesk ∧
      W.writeSessionKey pkesk = .ok written ∧
      writePkesks W sk (parseSymAlg sk.cipherAlgorithm) [pub] c [] = .ok written := by
  obtain ⟨pkesk, hpkesk⟩ := (L.creates c sk.data (parseSymAlg sk.cipherAlgorithm) _).mpr
    (capable_wrappedPart.mpr hcapable)
  obtain ⟨b, rest, hwritten, _⟩ := L.writes hpkesk
  refine ⟨pkesk, b :: rest, hpkesk, hwritten, ?_⟩
  rw [writePkesks_one hkey]
  exact writePkesk_ok.mpr ⟨pkesk, b :: rest, hpkesk, hwritten, rfl⟩

/-- the packets stand in front of the protected data -/
theorem protectInner_capable (hkey : W.publicFromArmorSingle pub.armored = .ok key)
    (hcapable : WritesCapable L key) {c : Coins} {innerBytes : Bytes}
    (hprotect : Protectable W sk innerBytes c) : ∃ c' pkesk written behind,
      W.fromSessionKeyV3 c' sk.data (parseSymAlg sk.cipherAlgorithm) (wrappedPart W key) =
        .ok pkesk ∧
      W.writeSessionKey pkesk = .ok written ∧
      protectInner W sk (parseSymAlg sk.cipherAlgorithm) innerBytes [pub] c =
        .ok (written ++ behind) := by
  obtain ⟨seipd, behind, hseipd, hbehind⟩ := hprotect
  obtain ⟨pkesk, written, hpkesk, hwritten, hloop⟩ :=
    writePkesks_capable sk hkey hcapable (W.nextCoins c)
  refine ⟨W.nextCoins c, pkesk, written, behind, hpkesk, hwritten, ?_⟩
  unfold protectInner
  rw [hseipd]
  show (writePkesks W sk _ [pub] _ [] >>= fun out => _) = _
  rw [hloop]
  show ((W.writeProtected seipd).mapError CryptoError.encrypt >>= fun written' => _) = _
  rw [hbehind]
  rfl

theorem rejectAead_off {opts : EncryptOptions} (h : opts.enableAeadWithEncryptionKeys = false) :
    rejectAead opts = .ok () := by
  unfold rejectAead
  rw [h]
  rfl

theorem rpgpEncrypt_eq {data innerBytes : Bytes} {opts : EncryptOptions} {c : Coins}
    (hopts : opts.enableAeadWithEncryptionKeys = false)
    (hinner : W.literalMessage data c = .ok innerBytes) (pubs : List PublicKey) :
    rpgpEncrypt W data sk pubs opts c =
      protectInner W sk (parseSymAlg sk.cipherAlgorithm) innerBytes pubs (W.nextCoins c) := by
  unfold rpgpEncrypt
  rw [rejectAead_off hopts, hinner]
  rfl

theorem rpgpEncryptAndSign_eq {data innerBytes : Bytes} {signer : PrivateKey}
    {sec : W.SignedSecretKey} {opts : EncryptOptions} {c : Coins}
    (hopts : opts.enableAeadWithEncryptionKeys = false)
    (hsec : W.fromArmorSingle signer.armored = .ok sec)
    (hinner : W.signedMessage data (W.primaryKey sec) signer.passphrase c = .ok innerBytes)
    (pubs : List PublicKey) :
    rpgpEncryptAndSign W data sk pubs signer opts c =
      protectInner W sk (parseSymAlg sk.cipherAlgorithm) innerBytes pubs (W.nextCoins c) := by
  have hparse : parseSecretKey W.toRpgp signer = .ok sec := by
    unfold parseSecretKey
    rw [hsec]
    rfl
  unfold rpgpEncryptAndSign
  rw [rejectAead_off hopts, hparse]
  show ((W.signedMessage data (W.primaryKey sec) signer.passphrase c).mapError CryptoError.encrypt
    >>= fun innerBytes => _) = _
  rw [hinner]
  rfl

/-- the first subkey of the recipient, or the primary part if there is no subkey, can be encrypted to,
and the algorithm of the session key has a name and is accepted: just then every way of wrapping it
succeeds and gives the session key back -/
theorem wrap_delivered (hbyte : sk.cipherAlgorithm < 256)
    (hkey : W.publicFromArmorSingle pub.armored = .ok key) (hpair : KeyPair L priv key) :
    WrapsFor L pub key priv sk ↔ WritesCapable L key ∧ sk.cipherAlgorithm ∈ namedAlgorithms ∧
      L.Accepts (parseSymAlg sk.cipherAlgorithm) := by
  constructor
  · intro h
    obtain ⟨message, hmade, _, hback⟩ := h.sessionKey 0
    unfold rpgpEncryptSessionKey at hmade
    rw [writePkesks_one hkey, writePkesk_ok] at hmade
    obtain ⟨pkesk, written, hpkesk, hwritten, rfl⟩ := hmade
    obtain ⟨sec, hsec, _⟩ := hpair
    have hparse : ∀ k ∈ [priv], ∃ sec, W.fromArmorSingle k.armored = .ok sec := by
      intro k hk
      rw [List.mem_singleton.mp hk]
      exact ⟨sec, hsec⟩
    obtain ⟨out, hout, _, hcipher⟩ := hback [priv] List.mem_cons_self hparse
    obtain ⟨haccepts, rfl⟩ := decrypt_wrapped_unique hbyte hpkesk hwritten hparse hout
    exact ⟨capable_wrappedPart.mp ((L.creates _ _ _ _).mp ⟨pkesk, hpkesk⟩),
      unwrapped_cipherAlgorithm.mp hcipher, haccepts⟩
  · intro ⟨hcapable, hnamed, haccepts⟩
    constructor
    · intro c
      obtain ⟨pkesk, written, hpkesk, hwritten, hloop⟩ :=
        writePkesks_capable sk hkey hcapable c
      have hdelivered := delivered_written hbyte hpair hnamed haccepts hpkesk hwritten []
      rw [List.append_nil] at hdelivered
      unfold rpgpEncryptSessionKey
      rw [hloop]
      exact hdelivered
    · intro data opts c innerBytes hopts hinner hprotect
      obtain ⟨c', pkesk, written, behind, hpkesk, hwritten, hmade⟩ :=
        protectInner_capable hkey hcapable hprotect
      rw [rpgpEncrypt_eq hopts hinner, hmade]
      exact delivered_written hbyte hpair hnamed haccepts hpkesk hwritten behind
    · intro data signer sec opts c innerBytes hopts hsec hinner hprotect
      obtain ⟨c', pkesk, written, behind, hpkesk, hwritten, hmade⟩ :=
        protectInner_capable hkey hcapable hprotect
      rw [rpgpEncryptAndSign_eq hopts hsec hinner, hmade]
      exact delivered_written hbyte hpair hnamed haccepts hpkesk hwritten behind

end

/-! ## a signing subkey in front -/

/-- a number as a byte of the wire -/
def algorithmNumber : SymmetricKeyAlgorithm → Nat
  | .other id => id
  | symAlg => symAlgId symAlg

theorem algorithmNumber_parse (id : Nat) : algorithmNumber (parseSymAlg id) = id := by
  unfold parseSymAlg
  split <;> rfl

/-- an encrypted session key: the part it is for, the number of the algorithm, and the data -/
abbrev NumberedKey := Nat × Nat × Bytes

def writeNumbered (pkesk : NumberedKey) : Bytes :=
  193 :: (Transparent.unary pkesk.1 ++ (Transparent.unary pkesk.2.1 ++ Transparent.field pkesk.2.2))

def takeNumbered : Bytes → Option (NumberedKey × Bytes)
  | 193 :: bytes => do
    let (part, bytes) ← Transparent.takeUnary bytes
    let (symAlg, bytes) ← Transparent.takeUnary bytes
    let (data, bytes) ← Transparent.takeField bytes
    return ((part, symAlg, data), bytes)
  | _ => none

theorem takeNumbered_write (pkesk : NumberedKey) (behind : Bytes) :
    takeNumbered (writeNumbered pkesk ++ behind) = some (pkesk, behind) := by
  obtain ⟨part, symAlg, data⟩ := pkesk
  unfold writeNumbered takeNumbered
  simp only [List.cons_append, List.append_assoc, Transparent.takeUnary_unary,
    Transparent.takeField_field, Option.bind_eq_bind, Option.bind_some, Option.pure_def]

def numberedPackets (bytes : Bytes) : List (Except String (Packet NumberedKey)) :=
  match takeNumbered bytes with
  | none => []
  | some (pkesk, []) => [.ok (.publicKeyEncryptedSessionKey (.ok pkesk) .v3)]
  | some (pkesk, _) => [.ok (.publicKeyEncryptedSessionKey (.ok pkesk) .v3), .ok .other]

/-- the parts of a key are numbers, and the odd ones can be encrypted to -/
def numberedKey : String → Except String (Nat × List Nat)
  | "usual" => .ok (0, [1])
  | "aged" => .ok (0, [2, 1])
  | _ => .error "no armor"

def numberedRpgp : RpgpWriter where
  SignedSecretKey := Nat × List Nat
  SecretPart := Nat
  EskValues := NumberedKey
  fromArmorSingle := numberedKey
  unlock _ _ := .ok (.ok ())
  fingerprint _ := []
  primaryKey key := key.1
  secretSubkeys key := key.2
  dearmor bytes := .ok bytes
  packets := numberedPackets
  decryptSessionKey part _ pkesk _ :=
    if part = pkesk.1 then .ok (.ok (.v34 pkesk.2.2 (parseSymAlg pkesk.2.1))) else .error "wrong key"
  SignedPublicKey := Nat × List Nat
  PublicPart := Nat
  StandaloneSignature := Empty
  publicFromArmorSingle := numberedKey
  publicPrimaryKey key := key.1
  publicSubkeys key := key.2
  signatureFromBytes _ := .error "no signature"
  verify standalone _ _ := nomatch standalone
  PublicKeyEncryptedSessionKey := NumberedKey
  SymEncryptedProtectedData := Bytes
  nextCoins c := c + 1
  fromSessionKeyV3 _ data symAlg part :=
    if part % 2 = 1 then .ok (part, algorithmNumber symAlg, data) else .error "cannot encrypt"
  writeSessionKey pkesk := .ok (writeNumbered pkesk)
  literalMessage data _ := .ok (203 :: data)
  signedMessage data _ _ _ := .ok (203 :: data)
  encryptSeipdv1 _ _ _ innerBytes := .ok innerBytes
  writeProtected seipd := .ok (210 :: seipd)

theorem numbered_made {c : Coins} {data : Bytes} {symAlg : SymmetricKeyAlgorithm} {part : Nat}
    {pkesk : NumberedKey} (h : numberedRpgp.fromSessionKeyV3 c data symAlg part = .ok pkesk) :
    part % 2 = 1 ∧ pkesk = (part, algorithmNumber symAlg, data) := by
  have h : (if part % 2 = 1 then .ok (part, algorithmNumber symAlg, data)
      else .error "cannot encrypt" : Except String NumberedKey) = .ok pkesk := h
  split at h
  · next hodd =>
    cases h
    exact ⟨hodd, rfl⟩
  · cases h

theorem numberedPackets_write (pkesk : NumberedKey) (behind : Bytes) :
    ∃ others, (behind = [] → others = []) ∧ numberedPackets (writeNumbered pkesk ++ behind) =
      .ok (.publicKeyEncryptedSessionKey (.ok pkesk) .v3) :: others := by
  unfold numberedPackets
  rw [takeNumbered_write]
  cases behind with
  | nil => exact ⟨[], fun _ => rfl, rfl⟩
  | cons b rest => exact ⟨[.ok .other], by simp, rfl⟩

theorem numbered_opens (secret part id : Nat) (data : Bytes) (opened : PlainSessionKey) :
    (if secret = part then .ok (.ok (.v34 data (parseSymAlg (algorithmNumber (parseSymAlg id)))))
      else .error "wrong key" : Except String (Except String PlainSessionKey)) = .ok (.ok opened) ↔
      secret = part ∧ True ∧ opened = .v34 data (parseSymAlg id) := by
  rw [algorithmNumber_parse]
  by_cases hsecret : secret = part
  · simp [hsecret, eq_comm]
  · simp [hsecret]

def numberedWrapping : Wrapping numberedRpgp where
  Capable (part : Nat) := part % 2 = 1
  Opens secret _ part := secret = part
  Accepts _ := True
  creates := by
    intro c data symAlg part
    constructor
    · intro ⟨pkesk, h⟩
      exact (numbered_made h).1
    · intro hodd
      exact ⟨_, if_pos hodd⟩
  writes := by
    intro c data symAlg part pkesk h
    exact ⟨193, _, rfl, by decide⟩
  reads := by
    intro c data id part pkesk written hid h hwritten
    obtain ⟨_, rfl⟩ := numbered_made h
    cases hwritten
    exact ⟨_, numberedPackets_write _,
      fun secret _ opened => numbered_opens secret part id data opened⟩

def numberedPair (armored : String) : PublicKey × PrivateKey :=
  ({ armored, fingerprintHex := "" }, { armored, fingerprintHex := "", passphrase := "" })

def numberedSession (cipherAlgorithm : Nat) : SessionKey :=
  { data := [7, 8], cipherAlgorithm, aead := .none }

/-- a key whose second subkey can be encrypted to is refused for its first one, which cannot -/
theorem aged_refused (c : Coins) :
    rpgpEncryptSessionKey numberedRpgp (numberedSession 9) [(numberedPair "aged").1] c =
      .error (.encrypt "cannot encrypt") := rfl

/-- a session key of an algorithm without a name comes back as one of AES-256 -/
theorem unnamed_replaced :
    (rpgpEncryptSessionKey numberedRpgp (numberedSession 5) [(numberedPair "usual").1] 0 >>=
      fun message => rpgpDecryptSessionKey numberedRpgp.toRpgp message [(numberedPair "usual").2]) =
      .ok (numberedSession 9) := rfl

/-- so neither of them is delivered, though each key has a part that can be encrypted to -/
theorem wrap_lost :
    (KeyPair numberedWrapping (numberedPair "aged").2 (0, [2, 1]) ∧
      numberedRpgp.publicFromArmorSingle (numberedPair "aged").1.armored = .ok (0, [2, 1]) ∧
      numberedWrapping.Capable (1 : Nat) ∧
      ¬ WrapsFor numberedWrapping (numberedPair "aged").1 (0, [2, 1]) (numberedPair "aged").2
        (numberedSession 9)) ∧
    (KeyPair numberedWrapping (numberedPair "usual").2 (0, [1]) ∧
      numberedRpgp.publicFromArmorSingle (numberedPair "usual").1.armored = .ok (0, [1]) ∧
      numberedWrapping.Capable (1 : Nat) ∧
      ¬ WrapsFor numberedWrapping (numberedPair "usual").1 (0, [1]) (numberedPair "usual").2
        (numberedSession 5)) := by
  refine ⟨⟨⟨(0, [2, 1]), rfl, rfl, .cons rfl (.cons rfl .nil)⟩, rfl, rfl, ?_⟩,
    ⟨(0, [1]), rfl, rfl, .cons rfl .nil⟩, rfl, rfl, ?_⟩
  · intro h
    obtain ⟨message, hmade, _⟩ := h.sessionKey 0
    rw [aged_refused] at hmade
    cases hmade
  · intro h
    obtain ⟨message, hmade, _, hback⟩ := h.sessionKey 0
    have hparse : ∀ k ∈ [(numberedPair "usual").2],
        ∃ sec, numberedRpgp.fromArmorSingle k.armored = .ok sec := by
      intro k hk
      rw [List.mem_singleton.mp hk]
      exact ⟨(0, [1]), rfl⟩
    obtain ⟨out, hout, _, hcipher⟩ := hback _ List.mem_cons_self hparse
    have hreplaced := unnamed_replaced
    rw [hmade] at hreplaced
    have hsame : out = numberedSession 9 := Except.ok.inj (hout.symm.trans hreplaced)
    rw [hsame] at hcipher
    exact absurd hcipher (by decide)

/-- the usual key, with the one subkey that can be encrypted to -/
theorem wrap_delivered_usual :
    WrapsFor numberedWrapping (numberedPair "usual").1 (0, [1]) (numberedPair "usual").2
      (numberedSession 9) :=
  (wrap_delivered (by decide) rfl ⟨(0, [1]), rfl, rfl, .cons rfl .nil⟩).mpr
    ⟨.inl ⟨_, _, rfl, rfl⟩, by decide, trivial⟩

end ProtonDrive
