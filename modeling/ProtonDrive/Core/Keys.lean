import ProtonDrive.Core.Actions

/-!
# Unlocking share and node keys (`download.rs`)

A share key and a node key are locked with a passphrase that travels encrypted to another key: the
address key for a share, the parent's key for a node.  `decryptShareKey` and
`decryptNodePrivateKey` are `unlockKey` with the texts of their errors; neither talks to the host.
-/

set_option linter.unusedVariables false

namespace ProtonDrive
open Encoding

/-- the texts the errors of one of the two functions begin with -/
structure UnlockTexts where
  sessionKey : String
  plaintext : String
  utf8 : String
  unlock : String

/-- decrypt the passphrase with `lockingKey`, then the key with the passphrase -/
def unlockKey (K : Crates) (P : OpenPgpCrypto) (texts : UnlockTexts)
    (keyArmored passphraseEncrypted : String) (lockingKey : PrivateKey) :
    Except Error PrivateKey :=
  let bytes := base64OrRaw passphraseEncrypted
  match P.decryptSessionKey bytes [lockingKey] with
  | .error e => .error (.decryption (texts.sessionKey ++ ": " ++ e.display))
  | .ok sessionKey =>
    match P.decryptAndVerify bytes sessionKey [] with
    | .error e => .error (.decryption (texts.plaintext ++ ": " ++ e.display))
    | .ok (plain, _) =>
      match fromUtf8 plain with
      | none => .error (.internal (texts.utf8 ++ ": " ++ K.utf8Error plain))
      | some passphrase =>
        match P.decryptKey keyArmored passphrase with
        | .error e => .error (.decryption (texts.unlock ++ ": " ++ e.display))
        | .ok key => .ok key

def decryptShareKey (K : Crates) (P : OpenPgpCrypto) (shareKeyArmored sharePassphrase : String)
    (addressKey : PrivateKey) : Except Error PrivateKey :=
  unlockKey K P
    { sessionKey := "share passphrase session key", plaintext := "share passphrase plaintext",
      utf8 := "share passphrase utf-8", unlock := "share key unlock" }
    shareKeyArmored sharePassphrase addressKey

def decryptNodePrivateKey (K : Crates) (P : OpenPgpCrypto) (nodeKeyArmored nodePassphrase : String)
    (parentKey : PrivateKey) : Except Error PrivateKey :=
  unlockKey K P
    { sessionKey := "node passphrase session key", plaintext := "node passphrase plaintext",
      utf8 := "passphrase utf-8", unlock := "node key unlock" }
    nodeKeyArmored nodePassphrase parentKey

section
variable {K : Crates} {P : OpenPgpCrypto} {texts : UnlockTexts} {keyArmored passphrase : String}
  {lockingKey : PrivateKey}

/-- what a successful unlock went through -/
theorem unlockKey_ok {key : PrivateKey}
    (h : unlockKey K P texts keyArmored passphrase lockingKey = .ok key) :
    ∃ sessionKey plain status secret,
      P.decryptSessionKey (base64OrRaw passphrase) [lockingKey] = .ok sessionKey ∧
      P.decryptAndVerify (base64OrRaw passphrase) sessionKey [] = .ok (plain, status) ∧
      fromUtf8 plain = some secret ∧ P.decryptKey keyArmored secret = .ok key := by
  unfold unlockKey at h
  simp only at h
  split at h
  · cases h
  · next sessionKey hsk =>
    split at h
    · cases h
    · next plain status hplain =>
      split at h
      · cases h
      · next secret hsecret =>
        split at h
        · cases h
        · next key' hkey =>
          cases h
          exact ⟨sessionKey, plain, status, secret, hsk, hplain, hsecret, hkey⟩

theorem unlockKey_eq {sessionKey : SessionKey} {secret : String} {status : VerificationStatus}
    {key : PrivateKey}
    (hsk : P.decryptSessionKey (base64OrRaw passphrase) [lockingKey] = .ok sessionKey)
    (hplain : P.decryptAndVerify (base64OrRaw passphrase) sessionKey [] =
      .ok (asBytes secret, status))
    (hkey : P.decryptKey keyArmored secret = .ok key) :
    unlockKey K P texts keyArmored passphrase lockingKey = .ok key := by
  unfold unlockKey
  simp only [hsk, hplain, fromUtf8_asBytes, hkey]

/-- a key whose passphrase was sealed for the public part of the locking key can be unlocked -/
theorem unlockKey_sealed {pair : PrivateKey → PublicKey → Prop} (ideal : IdealCrypto P pair)
    {secret : String} {sessionKey : SessionKey} {keys : List PublicKey} {signer : PrivateKey}
    {opts : EncryptOptions} {c : Coins} {message : Bytes} {pub : PublicKey} {key : PrivateKey}
    (hseal : P.encryptAndSign (asBytes secret) sessionKey keys signer opts c = .ok message)
    (hpub : pub ∈ keys) (hpair : pair lockingKey pub)
    (hkey : P.decryptKey keyArmored secret = .ok key) :
    unlockKey K P texts keyArmored (armor message .message) lockingKey = .ok key := by
  obtain ⟨status, hplain⟩ := ideal.decrypt hseal
  have hopen : P.decryptSessionKey (base64OrRaw (armor message .message)) [lockingKey] =
      .ok sessionKey := by
    rw [base64OrRaw_armor, ideal.armored_sessionKey _ hseal, ideal.unwrap_message hseal hpub hpair]
  have hread : P.decryptAndVerify (base64OrRaw (armor message .message)) sessionKey [] =
      .ok (asBytes secret, status) := by
    rw [base64OrRaw_armor, ideal.armored_message _ _ hseal, hplain]
  exact unlockKey_eq hopen hread hkey

end

end ProtonDrive
