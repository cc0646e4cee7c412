import ProtonDrive.Core.Crypto

/-!
# A transparent instance of the crypto interface

Nothing is hidden and nothing is hard to forge here: a message is a tag, the fingerprints of its
recipients, its session key and its data, one after the other; a signature is a tag, the
fingerprint of the signer and the signed data.  The operations check what the real ones check
(the recipient, the session key, the signer), so the laws of `IdealCrypto` hold
(`transparent_ideal`), and results that assume them can be evaluated.

* `field`, `takeField`    a byte string with its length in front, and the reader that undoes it;
* `packetsOf`             the packets in armored text (`packetsOf_armor`).
-/

set_option linter.unusedVariables false

namespace ProtonDrive
open Encoding

namespace Transparent

/-! ## fields -/

/-- a number as that many ones and a zero -/
def unary (n : Nat) : Bytes := List.replicate n 1 ++ [0]

def takeUnary : Bytes → Option (Nat × Bytes)
  | 0 :: rest => some (0, rest)
  | 1 :: rest => (takeUnary rest).map fun r => (r.1 + 1, r.2)
  | _ => none

theorem takeUnary_unary (n : Nat) (rest : Bytes) :
    takeUnary (unary n ++ rest) = some (n, rest) := by
  induction n with
  | zero => rfl
  | succ n ih =>
    show (takeUnary (unary n ++ rest)).map _ = _
    rw [ih]
    rfl

def field (bs : Bytes) : Bytes := unary bs.length ++ bs

def takeField (bs : Bytes) : Option (Bytes × Bytes) :=
  (takeUnary bs).bind fun r => some (r.2.take r.1, r.2.drop r.1)

theorem takeField_field (bs rest : Bytes) : takeField (field bs ++ rest) = some (bs, rest) := by
  unfold takeField field
  rw [List.append_assoc, takeUnary_unary]
  simp

def fields : List Bytes → Bytes
  | [] => [0]
  | f :: fs => 1 :: (field f ++ fields fs)

/-- `fuel` bounds the number of fields -/
def takeFields : Nat → Bytes → Option (List Bytes × Bytes)
  | _, 0 :: rest => some ([], rest)
  | fuel + 1, 1 :: rest => do
    let (f, rest) ← takeField rest
    let (fs, rest) ← takeFields fuel rest
    return (f :: fs, rest)
  | _, _ => none

theorem takeFields_fields (fs : List Bytes) (fuel : Nat) (h : fs.length ≤ fuel) (rest : Bytes) :
    takeFields fuel (fields fs ++ rest) = some (fs, rest) := by
  induction fs generalizing fuel with
  | nil => cases fuel <;> rfl
  | cons f fs ih =>
    obtain ⟨fuel, rfl⟩ : ∃ k, fuel = k + 1 := ⟨fuel - 1, by rw [List.length_cons] at h; omega⟩
    have hf : fs.length ≤ fuel := by
      rw [List.length_cons] at h
      omega
    show (takeField (field f ++ fields fs ++ rest)).bind _ = _
    rw [List.append_assoc, takeField_field]
    show (takeFields fuel (fields fs ++ rest)).bind _ = _
    rw [ih fuel hf]
    rfl

theorem length_le_fields (fs : List Bytes) : fs.length ≤ (fields fs).length := by
  induction fs with
  | nil => exact Nat.zero_le _
  | cons f fs ih =>
    simp only [fields, List.length_cons, List.length_append]
    omega

/-! ## packets -/

def sessionKeyBytes (sk : SessionKey) : Bytes :=
  unary sk.cipherAlgorithm ++ ((match sk.aead with | .none => 0 | .gcm => 1) :: field sk.data)

def takeSessionKey (bs : Bytes) : Option (SessionKey × Bytes) :=
  match takeUnary bs with
  | some (alg, 0 :: rest) => (takeField rest).map fun r => (⟨r.1, alg, .none⟩, r.2)
  | some (alg, 1 :: rest) => (takeField rest).map fun r => (⟨r.1, alg, .gcm⟩, r.2)
  | _ => none

theorem takeSessionKey_bytes (sk : SessionKey) (rest : Bytes) :
    takeSessionKey (sessionKeyBytes sk ++ rest) = some (sk, rest) := by
  obtain ⟨data, alg, aead⟩ := sk
  unfold takeSessionKey sessionKeyBytes
  rw [List.append_assoc, takeUnary_unary]
  cases aead with
  | none =>
    show (takeField (field data ++ rest)).map _ = _
    rw [takeField_field]
    rfl
  | gcm =>
    show (takeField (field data ++ rest)).map _ = _
    rw [takeField_field]
    rfl

structure Message where
  recipients : List Bytes
  sessionKey : SessionKey
  data : Bytes

def Message.bytes (m : Message) : Bytes :=
  1 :: (fields m.recipients ++ (sessionKeyBytes m.sessionKey ++ m.data))

def Message.ofBytes : Bytes → Option Message
  | 1 :: bs => do
    let (recipients, bs) ← takeFields bs.length bs
    let (sessionKey, data) ← takeSessionKey bs
    return { recipients, sessionKey, data }
  | _ => none

theorem Message.ofBytes_bytes (m : Message) : Message.ofBytes m.bytes = some m := by
  have hfuel : m.recipients.length ≤
      (fields m.recipients ++ (sessionKeyBytes m.sessionKey ++ m.data)).length := by
    rw [List.length_append]
    exact Nat.le_trans (length_le_fields _) (Nat.le_add_right _ _)
  show (takeFields _ (fields m.recipients ++ _)).bind _ = _
  rw [takeFields_fields _ _ hfuel]
  show (takeSessionKey (sessionKeyBytes m.sessionKey ++ m.data)).bind _ = _
  rw [takeSessionKey_bytes]
  rfl

structure Signature where
  signer : Bytes
  data : Bytes

def Signature.bytes (s : Signature) : Bytes := 2 :: (field s.signer ++ s.data)

def Signature.ofBytes : Bytes → Option Signature
  | 2 :: bs => (takeField bs).map fun r => ⟨r.1, r.2⟩
  | _ => none

theorem Signature.ofBytes_bytes (s : Signature) : Signature.ofBytes s.bytes = some s := by
  show (takeField (field s.signer ++ s.data)).map _ = _
  rw [takeField_field]
  rfl

/-! ## armored text -/

/-- the lengths of what stands before and after the body -/
def headLength : ArmorKind → Nat
  | .message => 29
  | .signature => 31

def tailLength : ArmorKind → Nat
  | .message => 32
  | .signature => 34

def packetsOf (kind : ArmorKind) (bs : Bytes) : Bytes :=
  match bs with
  | 45 :: _ =>
    let body := (bs.drop (headLength kind)).take (bs.length - headLength kind - tailLength kind)
    (Base64.decodeBytes (body.filter (· ≠ 10))).getD []
  | _ => bs

theorem length_armorHead (kind : ArmorKind) :
    (asBytes (armorHead kind)).length = headLength kind := by
  cases kind <;> rfl

theorem length_armorTail (kind : ArmorKind) (a b c : UInt8) :
    (asBytes (armorTail kind (Base64.encode [a, b, c]))).length = tailLength kind := by
  have hcrc : (asBytes (Base64.encode [a, b, c])).length = 4 := by
    unfold Base64.encode
    rw [asBytes_ofAscii _ (Base64.encodeBytes_ascii _)]
    rfl
  unfold armorTail
  simp only [asBytes_append, List.length_append, hcrc]
  cases kind <;> rfl

theorem filter_chunks (chunks : List Bytes) (h : ∀ chunk ∈ chunks, ∀ c ∈ chunk, c ≠ 10) :
    (chunks.flatMap fun chunk => chunk ++ [10]).filter (· ≠ 10) = chunks.flatten := by
  induction chunks with
  | nil => rfl
  | cons chunk chunks ih =>
    have hkeep : chunk.filter (· ≠ 10) = chunk :=
      List.filter_eq_self.mpr fun c hc => by simpa using h chunk List.mem_cons_self c hc
    rw [List.flatMap_cons, List.filter_append, List.filter_append, hkeep,
      ih fun chunk hc => h chunk (List.mem_cons_of_mem _ hc), List.flatten_cons]
    simp

theorem sym_ne_newline (i : Nat) : Base64.sym i ≠ 10 := by
  intro h
  have hn := congrArg UInt8.toNat h
  unfold Base64.sym at hn
  split at hn
  · simp at hn
    omega
  · split at hn
    · simp at hn
      omega
    · split at hn
      · simp at hn
        omega
      · split at hn <;> exact absurd hn (by decide)

theorem packetsOf_armor (kind : ArmorKind) (bs : Bytes) :
    packetsOf kind (asBytes (armor bs kind)) = bs := by
  obtain ⟨rest, hdash⟩ := asBytes_armor bs kind
  have hsplit : ∃ a b c, asBytes (armor bs kind) = asBytes (armorHead kind) ++
      (asBytes (armorLines (Base64.encodeBytes bs)) ++
        asBytes (armorTail kind (Base64.encode [a, b, c]))) := by
    unfold armor
    rw [asBytes_append, asBytes_append, List.append_assoc]
    exact ⟨_, _, _, rfl⟩
  obtain ⟨a, b, c, hsplit⟩ := hsplit
  have htail := length_armorTail kind a b c
  have hbody : ((asBytes (armor bs kind)).drop (headLength kind)).take
      ((asBytes (armor bs kind)).length - headLength kind - tailLength kind) =
      asBytes (armorLines (Base64.encodeBytes bs)) := by
    rw [hsplit, ← length_armorHead, ← htail]
    simp
  have hlines : (asBytes (armorLines (Base64.encodeBytes bs))).filter (· ≠ 10) =
      Base64.encodeBytes bs := by
    rw [asBytes_armorLines _ (Base64.encodeBytes_ascii bs), filter_chunks, flatten_chunks64 _ _
      (Nat.le_refl _)]
    intro chunk hchunk c hc
    refine Base64.encodeBytes_forall (P := fun c => c ≠ 10) sym_ne_newline (by decide) bs c ?_
    rw [← flatten_chunks64 _ (Base64.encodeBytes bs) (Nat.le_refl _)]
    exact List.mem_flatten.mpr ⟨chunk, hchunk, hc⟩
  rw [hdash] at hbody
  rw [hdash]
  show (Base64.decodeBytes (List.filter _ (List.take _ (List.drop _ _)))).getD [] = bs
  rw [hbody, hlines, Base64.decodeBytes_encodeBytes]
  rfl

/-! ## the operations -/

def encrypt (data : Bytes) (sk : SessionKey) (keys : List PublicKey) : Bytes :=
  Message.bytes ⟨keys.map fun k => asBytes k.fingerprintHex, sk, data⟩

def decryptSessionKey (data : Bytes) (keys : List PrivateKey) : Except CryptoError SessionKey :=
  match Message.ofBytes (packetsOf .message data) with
  | some m =>
    if keys.any fun k => asBytes k.fingerprintHex ∈ m.recipients then .ok m.sessionKey
    else .error (.decrypt "no matching recipient")
  | none => .error (.decrypt "not a message")

def decryptAndVerify (data : Bytes) (sk : SessionKey) :
    Except CryptoError (Bytes × VerificationStatus) :=
  match Message.ofBytes (packetsOf .message data) with
  | some m =>
    if m.sessionKey = sk then .ok (m.data, .noSignature)
    else .error (.decrypt "wrong session key")
  | none => .error (.decrypt "not a message")

def verify (data signature : Bytes) (keys : List PublicKey) :
    Except CryptoError VerificationStatus :=
  match Signature.ofBytes (packetsOf .signature signature) with
  | some s =>
    if ¬ keys.any fun k => asBytes k.fingerprintHex = s.signer then .ok .signatureWrongSigner
    else if s.data = data then .ok .ok
    else .ok .signatureInvalid
  | none => .error (.verify "not a signature")

end Transparent

open Transparent in
def transparentCrypto : OpenPgpCrypto where
  generatePassphrase c := toString c
  decryptKey armored passphrase := .ok { armored, fingerprintHex := armored, passphrase }
  encryptAndSign data sk keys _ _ _ := .ok (encrypt data sk keys)
  encrypt data sk keys _ _ := .ok (encrypt data sk keys)
  decryptAndVerify data sk _ := decryptAndVerify data sk
  decryptSessionKey := decryptSessionKey
  encryptSessionKey sk keys _ := .ok (encrypt [] sk keys)
  generateSessionKey _ _ c := .ok { data := asBytes (toString c), cipherAlgorithm := 9, aead := .none }
  generateKey passphrase _ c :=
    .ok ({ armored := toString c, fingerprintHex := toString c, passphrase }, toString c)
  sign data key _ _ := .ok (Signature.bytes ⟨asBytes key.fingerprintHex, data⟩)
  verify := verify
  publicKey key := .ok { armored := key.armored, fingerprintHex := key.fingerprintHex }

/-- a public key belongs to a private one if the fingerprints agree -/
def sameFingerprint (k : PrivateKey) (pub : PublicKey) : Prop :=
  pub.fingerprintHex = k.fingerprintHex

namespace Transparent

@[simp] theorem packetsOf_message (m : Message) : packetsOf .message m.bytes = m.bytes := rfl

@[simp] theorem packetsOf_signature (s : Signature) : packetsOf .signature s.bytes = s.bytes := rfl

theorem decryptSessionKey_encrypt {data : Bytes} {sk : SessionKey} {keys : List PublicKey}
    {k : PrivateKey} {pub : PublicKey} (hmem : pub ∈ keys) (hpair : sameFingerprint k pub) :
    decryptSessionKey (encrypt data sk keys) [k] = .ok sk := by
  unfold decryptSessionKey encrypt
  rw [packetsOf_message, Message.ofBytes_bytes]
  have hrec : asBytes k.fingerprintHex ∈ keys.map fun k => asBytes k.fingerprintHex :=
    List.mem_map.mpr ⟨pub, hmem, congrArg asBytes hpair⟩
  exact if_pos (List.any_eq_true.mpr ⟨k, List.mem_singleton.mpr rfl, decide_eq_true hrec⟩)

/-- the converse: a key that opens a message is the key of a recipient -/
theorem decryptSessionKey_recipient {data : Bytes} {sk sk' : SessionKey} {keys : List PublicKey}
    {k : PrivateKey} (h : decryptSessionKey (encrypt data sk keys) [k] = .ok sk') :
    ∃ pub ∈ keys, sameFingerprint k pub := by
  unfold decryptSessionKey encrypt at h
  rw [packetsOf_message, Message.ofBytes_bytes] at h
  simp only at h
  split at h
  · next hany =>
    obtain ⟨k', hk', hmem⟩ := List.any_eq_true.mp hany
    obtain rfl := List.mem_singleton.mp hk'
    obtain ⟨pub, hpub, heq⟩ := List.mem_map.mp (of_decide_eq_true hmem)
    exact ⟨pub, hpub, asBytes_injective heq⟩
  · cases h

theorem verify_eq : transparentCrypto.verify = verify := rfl

theorem verify_armor (payload : Bytes) (s : Signature) (keys : List PublicKey) :
    verify payload (asBytes (armor s.bytes .signature)) keys = verify payload s.bytes keys := by
  unfold verify
  rw [packetsOf_armor, packetsOf_signature]

/-- the verdict on a signature whose signer is listed -/
theorem verify_listed {payload : Bytes} {s : Signature} {keys : List PublicKey}
    (h : ∃ key ∈ keys, asBytes key.fingerprintHex = s.signer) :
    verify payload s.bytes keys = .ok (if s.data = payload then .ok else .signatureInvalid) := by
  obtain ⟨key, hkey, hsigner⟩ := h
  have hany : (keys.any fun k => asBytes k.fingerprintHex = s.signer) = true :=
    List.any_eq_true.mpr ⟨key, hkey, decide_eq_true hsigner⟩
  unfold verify
  simp only [packetsOf_signature, Signature.ofBytes_bytes]
  rw [if_neg (not_not.mpr hany)]
  split
  · rfl
  · rfl

end Transparent

open Transparent in
theorem transparent_ideal : IdealCrypto transparentCrypto sameFingerprint where
  publicKey_pair h := by
    cases h
    rfl
  generateKey_pair h := by
    cases h
    rfl
  unlock h := by
    cases h
    rfl
  unwrap h hmem hpair := by
    cases h
    exact decryptSessionKey_encrypt hmem hpair
  unwrap_message h hmem hpair := by
    cases h
    exact decryptSessionKey_encrypt hmem hpair
  decrypt h := by
    cases h
    refine ⟨.noSignature, ?_⟩
    show decryptAndVerify (encrypt _ _ _) _ = _
    unfold decryptAndVerify encrypt
    rw [packetsOf_message, Message.ofBytes_bytes]
    exact if_pos rfl
  verify {data k c sig keys pub} h hmem hpair := by
    cases h
    show verify data (Signature.bytes _) keys = _
    unfold verify
    rw [packetsOf_signature, Signature.ofBytes_bytes]
    have hsigner : keys.any fun key => asBytes key.fingerprintHex = asBytes k.fingerprintHex :=
      List.any_eq_true.mpr ⟨pub, hmem, decide_eq_true (congrArg asBytes hpair)⟩
    simp only [hsigner]
    rfl
  armored_sessionKey ks h := by
    cases h
    show decryptSessionKey _ ks = decryptSessionKey _ ks
    unfold decryptSessionKey encrypt
    rw [packetsOf_armor, packetsOf_message]
  armored_message key ks h := by
    cases h
    show decryptAndVerify _ key = decryptAndVerify _ key
    unfold decryptAndVerify encrypt
    rw [packetsOf_armor, packetsOf_message]
  armored_signature {data k c sig} payload ks h := by
    cases h
    rw [verify_eq]
    exact verify_armor payload _ ks

end ProtonDrive
