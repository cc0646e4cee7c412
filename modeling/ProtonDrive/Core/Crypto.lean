import ProtonDrive.Lib.Encoding

/-!
# The crypto interface (`proton-drive-crypto`)

* `OpenPgpCrypto`     the operations of the trait the core uses.  An operation that draws random
                      bits takes them as an argument (`Coins`); the others are functions of their
                      arguments;
* `armor`             the ASCII armor of a packet stream, checksum included;
* `IdealCrypto`       the laws under which keys, session keys and signatures do what they are for;
* `base64OrRaw`       how the client reads a field that may be base64 or armored.

The library behind the interface is not part of the repository: results that need more of it than
the type of its operations assume the laws they use.
-/

set_option linter.unusedVariables false

namespace ProtonDrive
open Encoding

/-! ## keys and errors -/

inductive CryptoError where
  | decrypt (msg : String)
  | verify (msg : String)
  | encrypt (msg : String)
  | key (msg : String)
  | srp (msg : String)
  | aeadNotSupported
  deriving DecidableEq

def CryptoError.display : CryptoError → String
  | .decrypt msg => "decryption failed: " ++ msg
  | .verify msg => "verification failed: " ++ msg
  | .encrypt msg => "encryption failed: " ++ msg
  | .key msg => "key error: " ++ msg
  | .srp msg => "SRP: " ++ msg
  | .aeadNotSupported => "AEAD/SEIPDv2 not supported in v1 (see ADR-0006)"

structure PrivateKey where
  armored : String
  fingerprintHex : String
  passphrase : String
  deriving DecidableEq

structure PublicKey where
  armored : String
  fingerprintHex : String
  deriving DecidableEq

inductive AeadAlgorithm where
  | none
  | gcm
  deriving DecidableEq

structure SessionKey where
  data : Bytes
  cipherAlgorithm : Nat
  aead : AeadAlgorithm
  deriving DecidableEq

inductive VerificationStatus where
  | ok
  | noSignature
  | signatureInvalid
  | signatureWrongSigner
  deriving DecidableEq

structure EncryptOptions where
  enableAeadWithEncryptionKeys : Bool := false
  compress : Bool := false

/-! ## ASCII armor -/

inductive ArmorKind where
  | message
  | signature

/-- one of the eight shifts for a byte -/
def crc24Shift (crc : UInt32) : UInt32 :=
  let crc := crc <<< 1
  if crc &&& 0x01000000 ≠ 0 then crc ^^^ 0x01864CFB else crc

def crc24Byte (crc : UInt32) (b : UInt8) : UInt32 :=
  Nat.repeat crc24Shift 8 (crc ^^^ (b.toUInt32 <<< 16))

def crc24 (data : Bytes) : UInt32 := data.foldl crc24Byte 0x00B704CE &&& 0x00FFFFFF

/-- `chunks(64)`: pieces of 64 bytes, the last one shorter -/
def chunks64 : Nat → Bytes → List Bytes
  | 0, _ => []
  | _ + 1, [] => []
  | fuel + 1, bs => bs.take 64 :: chunks64 fuel (bs.drop 64)

def ArmorKind.label : ArmorKind → String
  | .message => "PGP MESSAGE"
  | .signature => "PGP SIGNATURE"

def armorHead (kind : ArmorKind) : String := "-----BEGIN " ++ kind.label ++ "-----\n\n"

def armorTail (kind : ArmorKind) (crcB64 : String) : String :=
  "=" ++ crcB64 ++ "\n-----END " ++ kind.label ++ "-----\n"

/-- the lines of the body -/
def armorLines (b64 : Bytes) : String :=
  String.join ((chunks64 b64.length b64).map fun chunk => ofAscii chunk ++ "\n")

def armor (binary : Bytes) (kind : ArmorKind) : String :=
  let crc := crc24 binary
  let crcB64 := Base64.encode [(crc >>> 16).toUInt8, (crc >>> 8).toUInt8, crc.toUInt8]
  armorHead kind ++ armorLines (Base64.encodeBytes binary) ++ armorTail kind crcB64

theorem asBytes_armor (binary : Bytes) (kind : ArmorKind) :
    ∃ rest, asBytes (armor binary kind) = 45 :: rest := by
  unfold armor
  rw [asBytes_append, asBytes_append, List.append_assoc]
  cases kind <;> exact ⟨_, rfl⟩

theorem flatten_chunks64 (fuel : Nat) (bs : Bytes) (h : bs.length ≤ fuel) :
    (chunks64 fuel bs).flatten = bs := by
  induction fuel generalizing bs with
  | zero =>
    rw [List.length_eq_zero_iff.mp (Nat.le_zero.mp h)]
    rfl
  | succ fuel ih =>
    cases bs with
    | nil => rfl
    | cons b bs =>
      have hd : ((b :: bs).drop 64).length ≤ fuel := by
        rw [List.length_drop, List.length_cons]
        rw [List.length_cons] at h
        omega
      show ((b :: bs).take 64 :: chunks64 fuel ((b :: bs).drop 64)).flatten = b :: bs
      rw [List.flatten_cons, ih _ hd, List.take_append_drop]

/-- the body of an armored text is its base64 with a line feed after each line -/
theorem asBytes_armorLines (b64 : Bytes) (h : ∀ c ∈ b64, c.toNat < 128) :
    asBytes (armorLines b64) = (chunks64 b64.length b64).flatMap fun chunk => chunk ++ [10] := by
  have hmem : ∀ chunk ∈ chunks64 b64.length b64, ∀ c ∈ chunk, c.toNat < 128 := by
    intro chunk hchunk c hc
    refine h c ?_
    rw [← flatten_chunks64 b64.length b64 (Nat.le_refl _)]
    exact List.mem_flatten.mpr ⟨chunk, hchunk, hc⟩
  unfold armorLines
  rw [asBytes_join, List.map_map, List.flatMap]
  congr 1
  refine List.map_congr_left fun chunk hchunk => ?_
  show asBytes (ofAscii chunk ++ "\n") = chunk ++ [10]
  rw [asBytes_append, asBytes_ofAscii chunk (hmem chunk hchunk)]
  rfl

/-- armored text is no base64: a reader that tries base64 first falls back to the text itself -/
theorem decode_armor (binary : Bytes) (kind : ArmorKind) :
    Base64.decode (armor binary kind) = none := by
  obtain ⟨rest, h⟩ := asBytes_armor binary kind
  exact Base64.decode_of_not_symbol h rfl

/-- the reading of a field that is base64 on some wires and armored text on others:
`STANDARD.decode(field).unwrap_or_else(|_| field.as_bytes())` -/
def base64OrRaw (field : String) : Bytes := (Base64.decode field).getD (asBytes field)

theorem base64OrRaw_armor (binary : Bytes) (kind : ArmorKind) :
    base64OrRaw (armor binary kind) = asBytes (armor binary kind) := by
  unfold base64OrRaw
  rw [decode_armor]
  rfl

theorem base64OrRaw_encode (bs : Bytes) : base64OrRaw (Base64.encode bs) = bs := by
  unfold base64OrRaw
  rw [Base64.decode_encode]
  rfl

/-! ## the operations -/

/-- the random bits one operation draws -/
abbrev Coins := Nat

structure OpenPgpCrypto where
  generatePassphrase : Coins → String
  decryptKey : (armored passphrase : String) → Except CryptoError PrivateKey
  encryptAndSign : (data : Bytes) → SessionKey → (encryptionKeys : List PublicKey) →
    (signingKey : PrivateKey) → EncryptOptions → Coins → Except CryptoError Bytes
  encrypt : (data : Bytes) → SessionKey → (encryptionKeys : List PublicKey) → EncryptOptions →
    Coins → Except CryptoError Bytes
  decryptAndVerify : (data : Bytes) → SessionKey → (verificationKeys : List PublicKey) →
    Except CryptoError (Bytes × VerificationStatus)
  decryptSessionKey : (data : Bytes) → (decryptionKeys : List PrivateKey) →
    Except CryptoError SessionKey
  encryptSessionKey : SessionKey → (encryptionKeys : List PublicKey) → Coins →
    Except CryptoError Bytes
  generateSessionKey : (encryptionKeys : List PublicKey) → EncryptOptions → Coins →
    Except CryptoError SessionKey
  generateKey : (passphrase : String) → EncryptOptions → Coins →
    Except CryptoError (PrivateKey × String)
  sign : (data : Bytes) → (signingKey : PrivateKey) → (signatureContext : String) → Coins →
    Except CryptoError Bytes
  verify : (data signature : Bytes) → (verificationKeys : List PublicKey) →
    Except CryptoError VerificationStatus
  publicKey : PrivateKey → Except CryptoError PublicKey

/-- `pair k pub`: `pub` is the public part of `k`.  What is wrapped for `pub` opens with `k`, what
`k` signs verifies under `pub`, a message opens with its session key, a generated key unlocks with
its passphrase, and armored input is read like the packets in it. -/
structure IdealCrypto (P : OpenPgpCrypto) (pair : PrivateKey → PublicKey → Prop) : Prop where
  publicKey_pair : ∀ {k pub}, P.publicKey k = .ok pub → pair k pub
  generateKey_pair : ∀ {pass opts c k armored}, P.generateKey pass opts c = .ok (k, armored) →
    pair k { armored := armored, fingerprintHex := k.fingerprintHex }
  unlock : ∀ {pass opts c k armored}, P.generateKey pass opts c = .ok (k, armored) →
    P.decryptKey k.armored pass = .ok k
  unwrap : ∀ {sk keys c packet k pub}, P.encryptSessionKey sk keys c = .ok packet → pub ∈ keys →
    pair k pub → P.decryptSessionKey packet [k] = .ok sk
  unwrap_message : ∀ {data sk keys signer opts c message k pub},
    P.encryptAndSign data sk keys signer opts c = .ok message → pub ∈ keys → pair k pub →
    P.decryptSessionKey message [k] = .ok sk
  decrypt : ∀ {data sk keys signer opts c message},
    P.encryptAndSign data sk keys signer opts c = .ok message →
    ∃ status, P.decryptAndVerify message sk [] = .ok (data, status)
  verify : ∀ {data k c sig keys pub}, P.sign data k "" c = .ok sig → pub ∈ keys → pair k pub →
    P.verify data sig keys = .ok .ok
  armored_sessionKey : ∀ {data sk keys signer opts c message} ks,
    P.encryptAndSign data sk keys signer opts c = .ok message →
    P.decryptSessionKey (asBytes (armor message .message)) ks = P.decryptSessionKey message ks
  armored_message : ∀ {data sk keys signer opts c message} key ks,
    P.encryptAndSign data sk keys signer opts c = .ok message →
    P.decryptAndVerify (asBytes (armor message .message)) key ks =
      P.decryptAndVerify message key ks
  armored_signature : ∀ {data k c sig} payload ks, P.sign data k "" c = .ok sig →
    P.verify payload (asBytes (armor sig .signature)) ks = P.verify payload sig ks

end ProtonDrive
