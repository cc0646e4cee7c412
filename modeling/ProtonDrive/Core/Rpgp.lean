import ProtonDrive.Core.Crypto

/-!
# The crypto interface over an OpenPGP library (`RpgpCrypto`)

* `Rpgp`                what is used of the library: armored keys, packets, and the parts of a key that
                        may open an encrypted session key;
* `rpgpDecryptKey`      a key is parsed, and unlocked once to check the passphrase;
* `rpgpDecryptSessionKey`
                        every encrypted session key of the message is tried with every key, with its
                        primary part first;
* `rpgpPublicKeyFromArmored`
                        the public part of an armored key, for which no passphrase is needed;
* `rpgpVerify`          a detached signature is parsed, and checked with the keys one after the other;
* `rpgpDecryptAndVerify`
                        a message is opened with its session key, and its inline signature is checked
                        with the primary parts of the keys that can be read;
* `rpgpEncryptSessionKey`, `rpgpEncrypt`, `rpgpEncryptAndSign`
                        an encrypted session key is written for each recipient, in front of the
                        protected data if there are any.
-/

set_option linter.unusedVariables false

namespace ProtonDrive
open Encoding

/-! ## session keys -/

inductive SymmetricKeyAlgorithm where
  | plaintext
  | idea
  | tripleDes
  | cast5
  | blowfish
  | aes128
  | aes192
  | aes256
  | twofish
  | camellia128
  | camellia192
  | camellia256
  | other (id : Nat)

def symAlgId : SymmetricKeyAlgorithm → Nat
  | .plaintext => 0
  | .idea => 1
  | .tripleDes => 2
  | .cast5 => 3
  | .blowfish => 4
  | .aes128 => 7
  | .aes192 => 8
  | .aes256 => 9
  | .twofish => 10
  | .camellia128 => 11
  | .camellia192 => 12
  | .camellia256 => 13
  | .other _ => 9

def parseSymAlg : Nat → SymmetricKeyAlgorithm
  | 0 => .plaintext
  | 1 => .idea
  | 2 => .tripleDes
  | 3 => .cast5
  | 4 => .blowfish
  | 7 => .aes128
  | 8 => .aes192
  | 9 => .aes256
  | 10 => .twofish
  | 11 => .camellia128
  | 12 => .camellia192
  | 13 => .camellia256
  | id => .other id

inductive PlainSessionKey where
  | v34 (key : Bytes) (symAlg : SymmetricKeyAlgorithm)
  | v5 (key : Bytes)
  | v6 (key : Bytes)
  | unknown (key : Bytes) (symAlg : SymmetricKeyAlgorithm)

def plainToSessionKey : PlainSessionKey → SessionKey
  | .v34 key symAlg => { data := key, cipherAlgorithm := symAlgId symAlg, aead := .none }
  | .v6 key => { data := key, cipherAlgorithm := 9, aead := .none }
  | .unknown key symAlg => { data := key, cipherAlgorithm := symAlgId symAlg, aead := .none }
  | .v5 key => { data := key, cipherAlgorithm := 9, aead := .none }

/-! ## the library -/

inductive PkeskVersion where
  | v3
  | v6
  | other (version : Nat)

inductive EskType where
  | v34
  | v6

/-- the type under which an encrypted session key is decrypted, if it is at all -/
def PkeskVersion.eskType : PkeskVersion → Option EskType
  | .v3 => some .v34
  | .v6 => some .v6
  | .other _ => none

inductive Packet (Values : Type) where
  | publicKeyEncryptedSessionKey (values : Except String Values) (version : PkeskVersion)
  | other

structure Rpgp where
  SignedSecretKey : Type
  /-- the secret of a primary key or of a subkey -/
  SecretPart : Type
  EskValues : Type
  fromArmorSingle : String → Except String SignedSecretKey
  unlock : SignedSecretKey → (password : String) → Except String (Except String Unit)
  fingerprint : SignedSecretKey → Bytes
  primaryKey : SignedSecretKey → SecretPart
  secretSubkeys : SignedSecretKey → List SecretPart
  dearmor : Bytes → Except String Bytes
  /-- the packets of a message, up to the first that cannot be parsed -/
  packets : Bytes → List (Except String (Packet EskValues))
  decryptSessionKey : SecretPart → (password : String) → EskValues → EskType →
    Except String (Except String PlainSessionKey)

section
variable (R : Rpgp)

/-! ## the operations -/

def rpgpDecryptKey (armored passphrase : String) : Except CryptoError PrivateKey := do
  let key ← (R.fromArmorSingle armored).mapError .key
  let inner ← (R.unlock key passphrase).mapError fun e => .key ("unlock: " ++ e)
  inner.mapError fun e => .key ("unlock inner: " ++ e)
  return { armored, fingerprintHex := Hex.encode (R.fingerprint key), passphrase }

def isAsciiWhitespace (b : UInt8) : Bool := b = 32 || b = 9 || b = 10 || b = 12 || b = 13

def toBinaryPgp (data : Bytes) : Except CryptoError Bytes :=
  let trimmed := data.drop ((data.findIdx? fun b => !isAsciiWhitespace b).getD 0)
  if (asBytes "-----BEGIN PGP").isPrefixOf trimmed then
    (R.dearmor trimmed).mapError fun e => .decrypt ("dearmor: " ++ e)
  else .ok data

/-- text that begins with neither white space nor a dash is not armored -/
theorem toBinaryPgp_plain {b : UInt8} (rest : Bytes) (hspace : isAsciiWhitespace b = false)
    (hdash : b ≠ 45) : toBinaryPgp R (b :: rest) = .ok (b :: rest) := by
  have hfirst : ((b :: rest).findIdx? fun b => !isAsciiWhitespace b) = some 0 := by
    rw [List.findIdx?_cons, hspace]
    rfl
  unfold toBinaryPgp
  rw [hfirst]
  refine if_neg ?_
  show ¬ (List.isPrefixOf (45 :: _) (b :: rest) = true)
  rw [List.isPrefixOf]
  simp [hdash.symm]

def parseSecretKey (privKey : PrivateKey) : Except CryptoError R.SignedSecretKey :=
  (R.fromArmorSingle privKey.armored).mapError .key

/-- the first part of the key that opens the encrypted session key -/
def openWith (key : R.SignedSecretKey) (password : String) (values : R.EskValues) (typ : EskType) :
    Option PlainSessionKey :=
  (R.primaryKey key :: R.secretSubkeys key).findSome? fun part =>
    match R.decryptSessionKey part password values typ with
    | .ok (.ok sk) => some sk
    | _ => none

/-- the keys of the pool, one after the other -/
def openWithAny (values : R.EskValues) (typ : EskType) :
    List PrivateKey → Except CryptoError (Option SessionKey)
  | [] => .ok none
  | privKey :: rest => do
    let key ← parseSecretKey R privKey
    match openWith R key privKey.passphrase values typ with
    | some sk => return some (plainToSessionKey sk)
    | none => openWithAny values typ rest

def tryPackets (keys : List PrivateKey) :
    List (Except String (Packet R.EskValues)) → Except CryptoError SessionKey
  | [] => .error (.decrypt "no key could decrypt the session key")
  | .error e :: rest => .error (.decrypt e)
  | .ok .other :: rest => tryPackets keys rest
  | .ok (.publicKeyEncryptedSessionKey values version) :: rest => do
    let values ← values.mapError .decrypt
    match version.eskType with
    | none => tryPackets keys rest
    | some typ =>
      match ← openWithAny R values typ keys with
      | some sk => return sk
      | none => tryPackets keys rest

def rpgpDecryptSessionKey (data : Bytes) (keys : List PrivateKey) : Except CryptoError SessionKey := do
  let binary ← toBinaryPgp R data
  tryPackets R keys (R.packets binary)

/-- the operations of the library, with those of `others` that are not modelled over it -/
def rpgpCrypto (others : OpenPgpCrypto) : OpenPgpCrypto :=
  { others with
    decryptKey := rpgpDecryptKey R
    decryptSessionKey := rpgpDecryptSessionKey R }

end

/-- the library, with the armoring of the public part of a key -/
structure RpgpKeys extends Rpgp where
  signedPublicKey : SignedSecretKey → Except String String

def rpgpPublicKeyFromArmored (R : RpgpKeys) (armored : String) : Except CryptoError PublicKey := do
  let sec ← (R.fromArmorSingle armored).mapError .key
  let fingerprintHex := Hex.encode (R.fingerprint sec)
  let pubArmored ← (R.signedPublicKey sec).mapError .key
  return { armored := pubArmored, fingerprintHex }

/-! ## detached signatures -/

/-- the library, with public keys and detached signatures -/
structure RpgpSignatures extends Rpgp where
  SignedPublicKey : Type
  /-- the public part of a primary key or of a subkey -/
  PublicPart : Type
  StandaloneSignature : Type
  publicFromArmorSingle : String → Except String SignedPublicKey
  publicPrimaryKey : SignedPublicKey → PublicPart
  publicSubkeys : SignedPublicKey → List PublicPart
  signatureFromBytes : Bytes → Except String StandaloneSignature
  verify : StandaloneSignature → PublicPart → (data : Bytes) → Except String Unit

section
variable (R : RpgpSignatures)

def parsePublicKey (pubKey : PublicKey) : Except CryptoError R.SignedPublicKey :=
  (R.publicFromArmorSingle pubKey.armored).mapError .key

/-- the primary part of the key, and its subkeys -/
def publicParts (key : R.SignedPublicKey) : List R.PublicPart :=
  R.publicPrimaryKey key :: R.publicSubkeys key

/-- the primary part of the key is tried first, then its subkeys -/
def verifiesWith (standalone : R.StandaloneSignature) (data : Bytes) (key : R.SignedPublicKey) :
    Bool :=
  (R.publicPrimaryKey key :: R.publicSubkeys key).any fun part =>
    (R.verify standalone part data).isOk

/-- the keys, one after the other; one that cannot be parsed ends the search with an error -/
def verifyWithAny (standalone : R.StandaloneSignature) (data : Bytes) :
    List PublicKey → Except CryptoError VerificationStatus
  | [] => .ok .signatureWrongSigner
  | pubKey :: rest => do
    let key ← parsePublicKey R pubKey
    if verifiesWith R standalone data key then return .ok else verifyWithAny standalone data rest

def rpgpVerify (data signature : Bytes) (verificationKeys : List PublicKey) :
    Except CryptoError VerificationStatus :=
  if verificationKeys.isEmpty then .ok .noSignature
  else do
    let signature ← toBinaryPgp R.toRpgp signature
    let standalone ← (R.signatureFromBytes signature).mapError .verify
    verifyWithAny R standalone data verificationKeys

end

/-! ## messages with an inline signature -/

inductive VerificationResult where
  | valid
  | invalid
  deriving DecidableEq

/-- the library, with messages to be decrypted and verified -/
structure RpgpMessages extends RpgpSignatures where
  Message : Type
  SymEncryptedProtectedData : Type
  messageFromBytes : Bytes → Except String Message
  decryptWithSessionKey : Message → PlainSessionKey → Except String Message
  /-- the packets of a payload, up to the first that cannot be parsed; `none` is another packet than
  protected data -/
  protectedPackets : Bytes → List (Except String (Option SymEncryptedProtectedData))
  decryptProtected : SymEncryptedProtectedData → (sessionKey : Bytes) → SymmetricKeyAlgorithm →
    Except String Bytes
  /-- the message is `Signed` or `SignedOnePass` -/
  isSigned : Message → Bool
  /-- the data, and the message once it is read to its end -/
  asDataVec : Message → Except String (Bytes × Message)
  verifyNested : Message → List PublicPart → Except String (List VerificationResult)

section
variable (R : RpgpMessages)

/-- the first protected data among the packets, decrypted -/
def firstProtected (sessionKey : Bytes) (symAlg : SymmetricKeyAlgorithm) :
    List (Except String (Option R.SymEncryptedProtectedData)) → Except CryptoError Bytes
  | [] => .error (.decrypt "no SEIPD packet in bare payload")
  | .error e :: rest => .error (.decrypt e)
  | .ok none :: rest => firstProtected sessionKey symAlg rest
  | .ok (some seipd) :: rest => (R.decryptProtected seipd sessionKey symAlg).mapError .decrypt

def decryptBareSeipd (binary sessionKey : Bytes) (symAlg : SymmetricKeyAlgorithm) :
    Except CryptoError Bytes :=
  firstProtected R sessionKey symAlg (R.protectedPackets binary)

/-- the keys that can be read; the others are passed over -/
def readableKeys (verificationKeys : List PublicKey) : List R.SignedPublicKey :=
  verificationKeys.filterMap fun k => (parsePublicKey R.toRpgpSignatures k).toOption

def finalizeDecrypted (decrypted : R.Message) (verificationKeys : List PublicKey) :
    Except CryptoError (Bytes × VerificationStatus) := do
  let hasSignature := R.isSigned decrypted
  let (plaintext, drained) ← (R.asDataVec decrypted).mapError .decrypt
  if verificationKeys.isEmpty then return (plaintext, .noSignature)
  let keyRefs := (readableKeys R verificationKeys).map R.publicPrimaryKey
  let status := match R.verifyNested drained keyRefs with
    | .ok results =>
      if results.any (· = .valid) then .ok
      else if hasSignature then .signatureWrongSigner
      else .noSignature
    | .error _ => .signatureInvalid
  return (plaintext, status)

/-- a message with its encrypted session keys in front is opened as a whole; of a bare payload the
protected data are decrypted, and read as a message -/
def rpgpDecryptAndVerify (data : Bytes) (sessionKey : SessionKey)
    (verificationKeys : List PublicKey) : Except CryptoError (Bytes × VerificationStatus) := do
  let symAlg := parseSymAlg sessionKey.cipherAlgorithm
  let binary ← toBinaryPgp R.toRpgp data
  match R.messageFromBytes binary with
  | .ok msg =>
    let decrypted ← (R.decryptWithSessionKey msg (.v34 sessionKey.data symAlg)).mapError .decrypt
    finalizeDecrypted R decrypted verificationKeys
  | .error _ =>
    let inner ← decryptBareSeipd R binary sessionKey.data symAlg
    let decrypted ← (R.messageFromBytes inner).mapError .decrypt
    finalizeDecrypted R decrypted verificationKeys

end

/-! ## encryption -/

/-- the library, with the packets it writes -/
structure RpgpWriter extends RpgpSignatures where
  PublicKeyEncryptedSessionKey : Type
  SymEncryptedProtectedData : Type
  /-- the random bits after a draw -/
  nextCoins : Coins → Coins
  fromSessionKeyV3 : Coins → (sessionKey : Bytes) → SymmetricKeyAlgorithm → PublicPart →
    Except String PublicKeyEncryptedSessionKey
  writeSessionKey : PublicKeyEncryptedSessionKey → Except String Bytes
  literalMessage : (data : Bytes) → Coins → Except String Bytes
  signedMessage : (data : Bytes) → SecretPart → (password : String) → Coins → Except String Bytes
  encryptSeipdv1 : Coins → SymmetricKeyAlgorithm → (sessionKey innerBytes : Bytes) →
    Except String SymEncryptedProtectedData
  writeProtected : SymEncryptedProtectedData → Except String Bytes

def rejectAead (opts : EncryptOptions) : Except CryptoError Unit :=
  if opts.enableAeadWithEncryptionKeys then .error .aeadNotSupported else .ok ()

section
variable (W : RpgpWriter)

/-- the session key is encrypted to the first subkey, or to the primary key if there is none -/
def writePkesk (c : Coins) (sessionKey : SessionKey) (symAlg : SymmetricKeyAlgorithm)
    (pubKey : W.SignedPublicKey) (out : Bytes) : Except CryptoError Bytes := do
  let pkesk ← (match (W.publicSubkeys pubKey).head? with
    | some subkey => W.fromSessionKeyV3 c sessionKey.data symAlg subkey
    | none => W.fromSessionKeyV3 c sessionKey.data symAlg (W.publicPrimaryKey pubKey)
    ).mapError .encrypt
  let written ← (W.writeSessionKey pkesk).mapError .encrypt
  return out ++ written

def writePkesks (sessionKey : SessionKey) (symAlg : SymmetricKeyAlgorithm) :
    List PublicKey → Coins → (out : Bytes) → Except CryptoError Bytes
  | [], _, out => .ok out
  | pubKey :: rest, c, out => do
    let key ← parsePublicKey W.toRpgpSignatures pubKey
    let out ← writePkesk W c sessionKey symAlg key out
    writePkesks sessionKey symAlg rest (W.nextCoins c) out

def rpgpEncryptSessionKey (sessionKey : SessionKey) (encryptionKeys : List PublicKey) (c : Coins) :
    Except CryptoError Bytes :=
  writePkesks W sessionKey (parseSymAlg sessionKey.cipherAlgorithm) encryptionKeys c []

/-- the inner message is protected, and an encrypted session key written for each recipient -/
def protectInner (sessionKey : SessionKey) (symAlg : SymmetricKeyAlgorithm) (innerBytes : Bytes)
    (encryptionKeys : List PublicKey) (c : Coins) : Except CryptoError Bytes := do
  let seipd ← (W.encryptSeipdv1 c symAlg sessionKey.data innerBytes).mapError .encrypt
  let out ← writePkesks W sessionKey symAlg encryptionKeys (W.nextCoins c) []
  let written ← (W.writeProtected seipd).mapError .encrypt
  return out ++ written

def rpgpEncrypt (data : Bytes) (sessionKey : SessionKey) (encryptionKeys : List PublicKey)
    (opts : EncryptOptions) (c : Coins) : Except CryptoError Bytes := do
  rejectAead opts
  let symAlg := parseSymAlg sessionKey.cipherAlgorithm
  let innerBytes ← (W.literalMessage data c).mapError .encrypt
  protectInner W sessionKey symAlg innerBytes encryptionKeys (W.nextCoins c)

def rpgpEncryptAndSign (data : Bytes) (sessionKey : SessionKey) (encryptionKeys : List PublicKey)
    (signingKey : PrivateKey) (opts : EncryptOptions) (c : Coins) : Except CryptoError Bytes := do
  rejectAead opts
  let symAlg := parseSymAlg sessionKey.cipherAlgorithm
  let secKey ← parseSecretKey W.toRpgp signingKey
  let innerBytes ←
    (W.signedMessage data (W.primaryKey secKey) signingKey.passphrase c).mapError .encrypt
  protectInner W sessionKey symAlg innerBytes encryptionKeys (W.nextCoins c)

end

end ProtonDrive
