import ProtonDrive.Core.Rpgp
import ProtonDrive.Account.Cascade

/-!
# `RpgpCrypto` opens what is encrypted to a key

A pool of open keys yields the session key of a message exactly when one of them is a recipient: some
encrypted session key of the message opens with a part of the key, and nothing before it is
unreadable (`Recipient`).  So `RpgpCrypto` has ideal keys as soon as a key has one passphrase and a
message one text (`rpgpCrypto_ideal`).
-/

set_option linter.unusedVariables false

namespace ProtonDrive
open Encoding

section
variable (R : Rpgp) (own : String → Option String)

/-- the loop over the packets goes on after this one, if no key opens it -/
def ReadablePacket : Except String (Packet R.EskValues) → Prop
  | .error _ => False
  | .ok .other => True
  | .ok (.publicKeyEncryptedSessionKey values _) => ∃ v, values = .ok v

/-- one of the key's parts opens the encrypted session key -/
def OpensPacket (armored : String) : Except String (Packet R.EskValues) → Prop
  | .ok (.publicKeyEncryptedSessionKey (.ok values) version) => ∃ key pass typ,
      R.fromArmorSingle armored = .ok key ∧ own armored = some pass ∧ version.eskType = some typ ∧
        (openWith R key pass values typ).isSome
  | _ => False

/-- a packet opens with the key, and those before it are readable -/
def OpensAmong (armored : String) : List (Except String (Packet R.EskValues)) → Prop
  | [] => False
  | packet :: rest =>
    OpensPacket R own armored packet ∨ ReadablePacket R packet ∧ OpensAmong armored rest

def Recipient (m : Bytes) (armored : String) : Prop :=
  ∃ binary, toBinaryPgp R m = .ok binary ∧ OpensAmong R own armored (R.packets binary)

def Unlocks (armored pass : String) : Prop :=
  ∃ key, R.fromArmorSingle armored = .ok key ∧ R.unlock key pass = .ok (.ok ())

end

section
variable {R : Rpgp} {own : String → Option String} {pool : List PrivateKey}

theorem rpgpDecryptKey_ok (armored pass : String) (key : PrivateKey) :
    rpgpDecryptKey R armored pass = .ok key ↔ ∃ k, R.fromArmorSingle armored = .ok k ∧
      R.unlock k pass = .ok (.ok ()) ∧
      key = { armored, fingerprintHex := Hex.encode (R.fingerprint k), passphrase := pass } := by
  unfold rpgpDecryptKey
  simp only [Results.bind_ok, Results.mapError_ok]
  constructor
  · intro ⟨k, hk, inner, hinner, u, hu, hkey⟩
    rw [hu] at hinner
    exact ⟨k, hk, hinner, (Except.ok.inj hkey).symm⟩
  · rintro ⟨k, hk, hunlock, rfl⟩
    exact ⟨k, hk, .ok (), hunlock, (), rfl, rfl⟩

/-- the keys of the pool are parsed, and one opens the session key if any can -/
theorem openWithAny_spec (hparse : ∀ k ∈ pool, ∃ key, R.fromArmorSingle k.armored = .ok key)
    (values : R.EskValues) (typ : EskType) :
    ∃ found, openWithAny R values typ pool = .ok found ∧
      (found.isSome ↔ ∃ k ∈ pool, ∃ key, R.fromArmorSingle k.armored = .ok key ∧
        (openWith R key k.passphrase values typ).isSome) := by
  induction pool with
  | nil => exact ⟨none, rfl, by simp⟩
  | cons k rest ih =>
    obtain ⟨key, hkey⟩ := hparse k List.mem_cons_self
    obtain ⟨found, hfound, hiff⟩ := ih fun k hk => hparse k (List.mem_cons_of_mem _ hk)
    have hparsed : parseSecretKey R k = .ok key := by
      unfold parseSecretKey
      rw [hkey]
      rfl
    have hstep : openWithAny R values typ (k :: rest) = (openWith R key k.passphrase values typ).elim
        (openWithAny R values typ rest) fun sk => .ok (some (plainToSessionKey sk)) := by
      rw [openWithAny, hparsed]
      change Except.bind (.ok key) _ = _
      simp only [Except.bind]
      cases openWith R key k.passphrase values typ <;> rfl
    rw [hstep]
    cases hopen : openWith R key k.passphrase values typ with
    | some sk =>
      refine ⟨some (plainToSessionKey sk), rfl, fun _ => ?_, fun _ => rfl⟩
      exact ⟨k, List.mem_cons_self, key, hkey, by rw [hopen]; rfl⟩
    | none =>
      refine ⟨found, hfound, ?_⟩
      rw [hiff]
      constructor
      · intro ⟨k', hk', h⟩
        exact ⟨k', List.mem_cons_of_mem _ hk', h⟩
      · intro ⟨k', hk', key', hkey', hsome⟩
        rcases List.mem_cons.mp hk' with rfl | hk'
        · rw [hkey] at hkey'
          cases hkey'
          rw [hopen] at hsome
          cases hsome
        · exact ⟨k', hk', key', hkey', hsome⟩

theorem openWith_some {key : R.SignedSecretKey} {password : String} {values : R.EskValues}
    {typ : EskType} {plain : PlainSessionKey} (h : openWith R key password values typ = some plain) :
    ∃ part, R.decryptSessionKey part password values typ = .ok (.ok plain) := by
  obtain ⟨part, _, hpart⟩ := List.exists_of_findSome?_eq_some h
  refine ⟨part, ?_⟩
  split at hpart
  · next sk hsk =>
    cases hpart
    exact hsk
  · cases hpart

theorem openWith_isSome {key : R.SignedSecretKey} {password : String} {values : R.EskValues}
    {typ : EskType} {part : R.SecretPart} {plain : PlainSessionKey}
    (hmem : part ∈ R.primaryKey key :: R.secretSubkeys key)
    (h : R.decryptSessionKey part password values typ = .ok (.ok plain)) :
    (openWith R key password values typ).isSome := by
  unfold openWith
  rw [List.findSome?_isSome_iff]
  refine ⟨part, hmem, ?_⟩
  rw [h]
  rfl

/-- what is found is the session key that some part of some key opens -/
theorem openWithAny_found {values : R.EskValues} {typ : EskType} {sk : SessionKey}
    (h : openWithAny R values typ pool = .ok (some sk)) : ∃ part password plain,
      R.decryptSessionKey part password values typ = .ok (.ok plain) ∧
        sk = plainToSessionKey plain := by
  induction pool with
  | nil => cases h
  | cons k rest ih =>
    rw [openWithAny] at h
    obtain ⟨key, hkey, hfound⟩ := Results.bind_ok.mp h
    split at hfound
    · next plain hplain =>
      cases hfound
      obtain ⟨part, hpart⟩ := openWith_some hplain
      exact ⟨part, k.passphrase, plain, hpart, rfl⟩
    · exact ih hfound

/-- a packet that no key of the pool opens is passed over, if it is readable -/
theorem opensAmong_skip {packet : Except String (Packet R.EskValues)}
    {rest : List (Except String (Packet R.EskValues))}
    (hnone : ∀ k ∈ pool, ¬OpensPacket R own k.armored packet) (hread : ReadablePacket R packet) :
    (∃ k ∈ pool, OpensAmong R own k.armored (packet :: rest)) ↔
      ∃ k ∈ pool, OpensAmong R own k.armored rest :=
  exists_congr fun k => and_congr_right fun hk =>
    ⟨fun h => h.elim (absurd · (hnone k hk)) And.right, fun h => .inr ⟨hread, h⟩⟩

/-- the loop ends without a key at a packet that is neither opened nor readable -/
theorem opensAmong_stop {packet : Except String (Packet R.EskValues)}
    {rest : List (Except String (Packet R.EskValues))}
    (hnone : ∀ k ∈ pool, ¬OpensPacket R own k.armored packet) (hread : ¬ReadablePacket R packet) :
    ¬∃ k ∈ pool, OpensAmong R own k.armored (packet :: rest) := by
  rintro ⟨k, hk, h | h⟩
  · exact hnone k hk h
  · exact hread h.1

theorem tryPackets_pkesk (values : R.EskValues) {version : PkeskVersion} {typ : EskType}
    (rest : List (Except String (Packet R.EskValues))) {found : Option SessionKey}
    (htyp : version.eskType = some typ) (hfound : openWithAny R values typ pool = .ok found) :
    tryPackets R pool (.ok (.publicKeyEncryptedSessionKey (.ok values) version) :: rest) =
      found.elim (tryPackets R pool rest) .ok := by
  rw [tryPackets]
  simp only [htyp]
  change (openWithAny R values typ pool >>= _) = _
  rw [hfound]
  cases found <;> rfl

/-- the keys of the pool open the packet exactly if the loop over them finds a session key -/
theorem opensPacket_pool (hopen : ∀ k ∈ pool, own k.armored = some k.passphrase)
    {values : R.EskValues} {version : PkeskVersion} {typ : EskType}
    (htyp : version.eskType = some typ) :
    (∃ k ∈ pool, OpensPacket R own k.armored
        (.ok (.publicKeyEncryptedSessionKey (.ok values) version))) ↔
      ∃ k ∈ pool, ∃ key, R.fromArmorSingle k.armored = .ok key ∧
        (openWith R key k.passphrase values typ).isSome := by
  refine exists_congr fun k => and_congr_right fun hk => ?_
  constructor
  · intro ⟨key, pass, typ', hkey, hpass, htyp', hsome⟩
    rw [hopen k hk] at hpass
    rw [htyp] at htyp'
    cases hpass
    cases htyp'
    exact ⟨key, hkey, hsome⟩
  · intro ⟨key, hkey, hsome⟩
    exact ⟨key, k.passphrase, typ, hkey, hopen k hk, htyp, hsome⟩

theorem tryPackets_spec (hopen : ∀ k ∈ pool, own k.armored = some k.passphrase)
    (hparse : ∀ k ∈ pool, ∃ key, R.fromArmorSingle k.armored = .ok key)
    (packets : List (Except String (Packet R.EskValues))) :
    (∃ sk, tryPackets R pool packets = .ok sk) ↔
      ∃ k ∈ pool, OpensAmong R own k.armored packets := by
  have hstop : ∀ {e : CryptoError}, ¬∃ sk : SessionKey, Except.error e = Except.ok sk := by
    intro e ⟨sk, h⟩
    cases h
  induction packets with
  | nil => exact iff_of_false hstop (by simp [OpensAmong])
  | cons packet rest ih =>
    match packet with
    | .error e => exact iff_of_false hstop (opensAmong_stop (fun _ _ h => h) fun h => h)
    | .ok .other =>
      refine Iff.trans ih (opensAmong_skip ?_ ?_).symm
      · exact fun _ _ h => h
      · exact trivial
    | .ok (.publicKeyEncryptedSessionKey (.error e) version) =>
      refine iff_of_false hstop (opensAmong_stop (fun _ _ h => h) ?_)
      intro ⟨v, hv⟩
      cases hv
    | .ok (.publicKeyEncryptedSessionKey (.ok values) version) =>
      have hread : ReadablePacket R (.ok (.publicKeyEncryptedSessionKey (.ok values) version)) :=
        ⟨values, rfl⟩
      cases htyp : version.eskType with
      | none =>
        have hstep : tryPackets R pool
            (.ok (.publicKeyEncryptedSessionKey (.ok values) version) :: rest) =
            tryPackets R pool rest := by
          rw [tryPackets]
          simp only [htyp]
          rfl
        rw [hstep]
        refine Iff.trans ih (opensAmong_skip (fun k _ h => ?_) hread).symm
        obtain ⟨key, pass, typ, _, _, h, _⟩ := h
        rw [htyp] at h
        cases h
      | some typ =>
        obtain ⟨found, hfound, hiff⟩ := openWithAny_spec hparse values typ
        rw [← opensPacket_pool hopen htyp] at hiff
        rw [tryPackets_pkesk values rest htyp hfound]
        cases found with
        | some sk =>
          obtain ⟨k, hk, hpacket⟩ := hiff.mp rfl
          exact iff_of_true ⟨sk, rfl⟩ ⟨k, hk, .inl hpacket⟩
        | none =>
          refine Iff.trans ih (opensAmong_skip (fun k hk h => ?_) hread).symm
          cases hiff.mpr ⟨k, hk, h⟩

/-- `decrypt_session_key` with a pool of open keys -/
theorem rpgpDecryptSessionKey_spec (hopen : ∀ k ∈ pool, own k.armored = some k.passphrase)
    (hparse : ∀ k ∈ pool, ∃ key, R.fromArmorSingle k.armored = .ok key) (m : Bytes) :
    (∃ sk, rpgpDecryptSessionKey R m pool = .ok sk) ↔ ∃ k ∈ pool, Recipient R own m k.armored := by
  unfold rpgpDecryptSessionKey Recipient
  cases hbinary : toBinaryPgp R m with
  | error e =>
    constructor
    · intro ⟨sk, h⟩
      cases h
    · intro ⟨k, hk, binary, h, _⟩
      cases h
  | ok binary =>
    show (∃ sk, tryPackets R pool (R.packets binary) = .ok sk) ↔ _
    rw [tryPackets_spec hopen hparse]
    refine exists_congr fun k => and_congr_right fun _ => ?_
    constructor
    · exact fun h => ⟨binary, rfl, h⟩
    · intro ⟨b, hb, h⟩
      cases hb
      exact h

/-- the keys of `RpgpCrypto` are ideal if each has one passphrase and each message one text -/
theorem rpgpCrypto_ideal (others : OpenPgpCrypto) (W : KeyFacts)
    (hown : ∀ armored pass, Unlocks R armored pass ↔ W.own armored = some pass)
    (hfingerprint : ∀ armored key, R.fromArmorSingle armored = .ok key →
      W.fingerprintHex armored = Hex.encode (R.fingerprint key))
    (hrecipient : ∀ m armored, W.recipient m armored ↔ Recipient R W.own m armored)
    (hmessage : ∀ m pool sk, (∀ k ∈ pool, W.Open k) → rpgpDecryptSessionKey R m pool = .ok sk →
      ∃ status, others.decryptAndVerify m sk [] = .ok (W.plaintext m, status)) :
    IdealUnlock (rpgpCrypto R others) W where
  opens := by
    intro armored pass key
    show rpgpDecryptKey R armored pass = .ok key ↔ _
    rw [rpgpDecryptKey_ok, ← hown]
    constructor
    · rintro ⟨k, hk, hunlock, rfl⟩
      exact ⟨⟨k, hk, hunlock⟩, by rw [hfingerprint armored k hk]⟩
    · rintro ⟨⟨k, hk, hunlock⟩, rfl⟩
      exact ⟨k, hk, hunlock, by rw [hfingerprint armored k hk]⟩
  sessionKey := by
    intro m pool hpool
    simp only [hrecipient]
    refine rpgpDecryptSessionKey_spec hpool (fun k hk => ?_) m
    obtain ⟨key, hkey, _⟩ := (hown k.armored k.passphrase).mpr (hpool k hk)
    exact ⟨key, hkey⟩
  message := fun hpool hsk => hmessage _ _ _ hpool hsk

end

end ProtonDrive
