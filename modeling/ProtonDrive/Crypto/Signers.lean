import ProtonDrive.Core.Transparent
import ProtonDrive.Download.Reported

/-!
# Which signers are accepted

A signature is checked in two places: `decrypt_and_verify` checks the one inside a message, `verify` a
detached one.  They take the same keys and do not try the same parts of them:

* `InlineBy`             the message opens to one that is signed by `signer`, the part of a key;
* `DetachedBy`           the signature is one of `signer` over the data;
* `decryptAndVerify_accepts`
                         inside a message the primary parts of all keys that can be read are tried;
* `verify_accepts`       a detached signature is tried with all parts of the keys that stand before
                         the first one that cannot be read (`leadingKeys`);
* `signers_agree`        for which keys both accept the same signers (`SameVerdict`).
-/

set_option linter.unusedVariables false

namespace ProtonDrive
open Encoding

section
variable (R : RpgpMessages)

/-! ## signed by one part of a key -/

/-- a signed message, whose signature verifies with `signer` and with no other part -/
structure SignedBy (signer : R.PublicPart) (data : Bytes) (opened : R.Message) : Prop where
  signed : R.isSigned opened = true
  verifies : ∃ drained, R.asDataVec opened = .ok (data, drained) ∧
    ∀ parts, ∃ results, R.verifyNested drained parts = .ok results ∧
      (.valid ∈ results ↔ signer ∈ parts)

/-- the session key opens the payload: as a whole, or by the protected data in it -/
inductive OpensTo (payload : Bytes) (sk : SessionKey) (opened : R.Message) : Prop where
  | composed {binary : Bytes} {msg : R.Message} (hbinary : toBinaryPgp R.toRpgp payload = .ok binary)
      (hmsg : R.messageFromBytes binary = .ok msg)
      (hopen : R.decryptWithSessionKey msg (.v34 sk.data (parseSymAlg sk.cipherAlgorithm)) =
        .ok opened)
  | bare {binary inner : Bytes} {e : String} (hbinary : toBinaryPgp R.toRpgp payload = .ok binary)
      (hmsg : R.messageFromBytes binary = .error e)
      (hinner : decryptBareSeipd R binary sk.data (parseSymAlg sk.cipherAlgorithm) = .ok inner)
      (hopen : R.messageFromBytes inner = .ok opened)

def InlineBy (signer : R.PublicPart) (data payload : Bytes) (sk : SessionKey) : Prop :=
  ∃ opened, OpensTo R payload sk opened ∧ SignedBy R signer data opened

def DetachedBy (signer : R.PublicPart) (data signature : Bytes) : Prop :=
  ∃ binary standalone, toBinaryPgp R.toRpgp signature = .ok binary ∧
    R.signatureFromBytes binary = .ok standalone ∧
    ∀ part, R.verify standalone part data = .ok () ↔ part = signer

/-! ## the keys -/

/-- the keys before the first one that cannot be read -/
def leadingKeys (keys : List PublicKey) : List R.SignedPublicKey :=
  Search.leading (parsePublicKey R.toRpgpSignatures) keys

/-- the primary part of a key that can be read -/
def PrimaryAmong (keys : List PublicKey) (signer : R.PublicPart) : Prop :=
  ∃ key ∈ readableKeys R keys, R.publicPrimaryKey key = signer

/-- a part of a leading key -/
def PartAmong (keys : List PublicKey) (signer : R.PublicPart) : Prop :=
  ∃ key ∈ leadingKeys R keys, signer ∈ publicParts R.toRpgpSignatures key

/-- a subkey of a leading key -/
def SubkeyAmong (keys : List PublicKey) (signer : R.PublicPart) : Prop :=
  ∃ key ∈ leadingKeys R keys, signer ∈ R.publicSubkeys key

/-- the signature in the message is reported `Ok` just if the detached one is -/
def SameVerdict (payload : Bytes) (sk : SessionKey) (data signature : Bytes)
    (keys : List PublicKey) : Prop :=
  (∃ plaintext, rpgpDecryptAndVerify R payload sk keys = .ok (plaintext, .ok)) ↔
    rpgpVerify R.toRpgpSignatures data signature keys = .ok .ok

variable {R}
variable {signer : R.PublicPart} {data payload signature : Bytes} {sk : SessionKey}
  {keys : List PublicKey} {opened : R.Message}

/-- a part of a leading key is one of its subkeys, or the primary part of a key that can be read -/
theorem partAmong_cases (h : PartAmong R keys signer) :
    PrimaryAmong R keys signer ∨ SubkeyAmong R keys signer := by
  obtain ⟨key, hkey, hpart⟩ := h
  rcases List.mem_cons.mp hpart with heq | hsubkey
  · exact .inl ⟨key, Search.leading_readable hkey, heq.symm⟩
  · exact .inr ⟨key, hkey, hsubkey⟩

theorem SubkeyAmong.part (h : SubkeyAmong R keys signer) : PartAmong R keys signer := by
  obtain ⟨key, hkey, hsubkey⟩ := h
  exact ⟨key, hkey, List.mem_cons_of_mem _ hsubkey⟩

/-! ## inside a message -/

theorem OpensTo.finalized (h : OpensTo R payload sk opened) (keys : List PublicKey) :
    rpgpDecryptAndVerify R payload sk keys = finalizeDecrypted R opened keys := by
  unfold rpgpDecryptAndVerify
  cases h with
  | composed hbinary hmsg hopen =>
    rw [hbinary]
    simp only [bind, Except.bind, hmsg, hopen]
    rfl
  | bare hbinary hmsg hinner hopen =>
    rw [hbinary]
    simp only [bind, Except.bind, hmsg, hinner, hopen]
    rfl

/-- a signed message is reported with its data, and accepted or put down to another signer -/
theorem finalizeDecrypted_signed (h : SignedBy R signer data opened) (hne : keys ≠ []) :
    ∃ status, finalizeDecrypted R opened keys = .ok (data, status) ∧
      (status = .ok ↔ PrimaryAmong R keys signer) ∧
      (status = .ok ∨ status = .signatureWrongSigner) := by
  have hempty : keys.isEmpty = false := by simpa using hne
  obtain ⟨drained, hdrained, hverify⟩ := h.verifies
  obtain ⟨results, hresults, hvalid⟩ :=
    hverify ((readableKeys R keys).map R.publicPrimaryKey)
  have hprimary : VerificationResult.valid ∈ results ↔ PrimaryAmong R keys signer := by
    rw [hvalid, List.mem_map]
    rfl
  have hany : (results.any (· = .valid)) = true ↔ PrimaryAmong R keys signer := by
    rw [← hprimary]
    simp
  have hstep : finalizeDecrypted R opened keys = .ok (data,
      if results.any (· = .valid) then .ok else .signatureWrongSigner) := by
    unfold finalizeDecrypted
    rw [hdrained, hempty, h.signed]
    simp only [bind, Except.bind, Except.mapError, hresults, Bool.false_eq_true, if_false, if_true]
    rfl
  rw [hstep, ← hany]
  cases results.any (· = .valid) with
  | true => exact ⟨.ok, rfl, by simp, .inl rfl⟩
  | false => exact ⟨.signatureWrongSigner, rfl, by simp, .inr rfl⟩

theorem decryptAndVerify_accepts (h : InlineBy R signer data payload sk) (hne : keys ≠ []) :
    (∃ plaintext, rpgpDecryptAndVerify R payload sk keys = .ok (plaintext, .ok)) ↔
      PrimaryAmong R keys signer := by
  obtain ⟨opened, hopens, hsigned⟩ := h
  obtain ⟨status, hstatus, hiff, _⟩ := finalizeDecrypted_signed hsigned hne
  rw [hopens.finalized keys, hstatus, ← hiff]
  constructor
  · intro ⟨plaintext, heq⟩
    cases heq
    rfl
  · intro hok
    rw [hok]
    exact ⟨data, rfl⟩

/-! ## on its own -/

theorem verifiesWith_iff {standalone : R.StandaloneSignature}
    (h : ∀ part, R.verify standalone part data = .ok () ↔ part = signer) (key : R.SignedPublicKey) :
    verifiesWith R.toRpgpSignatures standalone data key = true ↔
      signer ∈ publicParts R.toRpgpSignatures key := by
  have hok : ∀ part, (R.verify standalone part data).isOk = true ↔ part = signer := by
    intro part
    rw [← h part]
    cases R.verify standalone part data with
    | error e => simp [Except.isOk, Except.toBool]
    | ok u => simp [Except.isOk, Except.toBool]
  show ((publicParts R.toRpgpSignatures key).any fun part =>
    (R.verify standalone part data).isOk) = true ↔ _
  rw [List.any_eq_true]
  simp only [hok, exists_eq_right]

theorem verify_accepts (h : DetachedBy R signer data signature) (hne : keys ≠ []) :
    rpgpVerify R.toRpgpSignatures data signature keys = .ok .ok ↔ PartAmong R keys signer := by
  have hempty : keys.isEmpty = false := by simpa using hne
  obtain ⟨binary, standalone, hbinary, hstandalone, hverify⟩ := h
  have hstep : rpgpVerify R.toRpgpSignatures data signature keys =
      verifyWithAny R.toRpgpSignatures standalone data keys := by
    unfold rpgpVerify
    rw [hempty, hbinary]
    simp only [bind, Except.bind, hstandalone, Bool.false_eq_true, if_false]
    rfl
  have hfound : (verifyWithAny R.toRpgpSignatures standalone data keys = .ok .ok) ↔
      searchKeys R.toRpgpSignatures standalone data keys = .ok true := by
    rw [verifyWithAny_eq]
    cases searchKeys R.toRpgpSignatures standalone data keys with
    | error e => simp [Except.map]
    | ok found => cases found <;> simp [Except.map]
  rw [hstep, hfound]
  unfold searchKeys PartAmong
  rw [Search.any_hit]
  exact exists_congr fun key => and_congr_right fun _ => verifiesWith_iff hverify key

/-! ## the same signers -/

/-- both accept the same signer just if one that is a subkey of a leading key is also the primary part
of a key that can be read, and one that is the primary part of a key that can be read is also a part of
a leading key -/
theorem signers_agree (hinline : InlineBy R signer data payload sk)
    (hdetached : DetachedBy R signer data signature) (hne : keys ≠ []) :
    SameVerdict R payload sk data signature keys ↔
      (SubkeyAmong R keys signer → PrimaryAmong R keys signer) ∧
      (PrimaryAmong R keys signer → PartAmong R keys signer) := by
  unfold SameVerdict
  rw [decryptAndVerify_accepts hinline hne, verify_accepts hdetached hne]
  constructor
  · intro hiff
    exact ⟨fun hsubkey => hiff.mpr hsubkey.part, hiff.mp⟩
  · intro ⟨hsubkey, hprimary⟩
    refine ⟨hprimary, fun hpart => ?_⟩
    rcases partAmong_cases hpart with h | h
    · exact h
    · exact hsubkey h

end

/-! ## a subkey that signs, and a key that cannot be read -/

/-- a message is its session key, its signer and its data -/
def takeMessage : Bytes → Except String (Bytes × Bytes × Bytes)
  | 193 :: bytes =>
    match Transparent.takeField bytes with
    | none => .error "no session key"
    | some (key, rest) =>
      match Transparent.takeField rest with
      | none => .error "no signer"
      | some (signer, data) => .ok (key, signer, data)
  | _ => .error "no message"

/-- every key has one subkey -/
def inlineRpgp : RpgpMessages where
  toRpgpSignatures := { plainRpgp with publicSubkeys := fun key => [asBytes key ++ [1]] }
  Message := Bytes × Bytes × Bytes
  SymEncryptedProtectedData := Empty
  messageFromBytes := takeMessage
  decryptWithSessionKey
    | (key, message), .v34 key' _ =>
      if key = key' then .ok (key, message) else .error "bad session key"
    | _, _ => .error "bad session key"
  protectedPackets _ := []
  decryptProtected seipd _ _ := nomatch seipd
  isSigned _ := true
  asDataVec message := .ok (message.2.2, message)
  verifyNested message parts := .ok (parts.map fun part =>
    if message.2.1 = part then .valid else .invalid)

def inlineSession : SessionKey := { data := [7], cipherAlgorithm := 9, aead := .none }

def inlineMessage (signer data : Bytes) : Bytes :=
  193 :: (Transparent.field [7] ++ (Transparent.field signer ++ data))

def detachedSignature (signer data : Bytes) : Bytes := 83 :: (signer ++ data)

theorem takeMessage_inlineMessage (signer data : Bytes) :
    takeMessage (inlineMessage signer data) = .ok ([7], signer, data) := by
  unfold takeMessage inlineMessage
  simp only [Transparent.takeField_field]

theorem inlineMessage_by (signer data : Bytes) :
    InlineBy inlineRpgp signer data (inlineMessage signer data) inlineSession := by
  have hopens : OpensTo inlineRpgp (inlineMessage signer data) inlineSession ([7], signer, data) :=
    .composed (toBinaryPgp_plain _ _ rfl (by decide)) (takeMessage_inlineMessage signer data) rfl
  have hvalid : ∀ parts : List Bytes, VerificationResult.valid ∈ parts.map (fun part =>
      if signer = part then VerificationResult.valid else .invalid) ↔ signer ∈ parts := by
    intro parts
    rw [List.mem_map]
    constructor
    · intro ⟨part, hpart, heq⟩
      by_cases hsigner : signer = part
      · rw [hsigner]
        exact hpart
      · rw [if_neg hsigner] at heq
        cases heq
    · intro hmem
      exact ⟨signer, hmem, if_pos rfl⟩
  exact ⟨_, hopens, rfl, _, rfl, fun parts => ⟨_, rfl, hvalid parts⟩⟩

theorem detachedSignature_by (signer data : Bytes) :
    DetachedBy inlineRpgp signer data (detachedSignature signer data) := by
  have hverify : ∀ part : Bytes, (if signer ++ data = part ++ data then Except.ok ()
      else Except.error "bad signature") = Except.ok () ↔ part = signer := by
    intro part
    by_cases hsigner : signer = part
    · rw [hsigner]
      simp
    · have hother : signer ++ data ≠ part ++ data := fun h => hsigner (List.append_cancel_right h)
      rw [if_neg hother]
      simp [Ne.symm hsigner]
  exact ⟨_, signer ++ data, toBinaryPgp_plain _ _ rfl (by decide), rfl, hverify⟩

/-- the signature of a subkey is refused inside a message, and accepted on its own -/
theorem subkey_refused :
    rpgpDecryptAndVerify inlineRpgp (inlineMessage (asBytes "addr" ++ [1]) [5]) inlineSession
        [signerKey] = .ok ([5], .signatureWrongSigner) ∧
      rpgpVerify inlineRpgp.toRpgpSignatures [5] (detachedSignature (asBytes "addr" ++ [1]) [5])
        [signerKey] = .ok .ok := ⟨rfl, rfl⟩

/-- that of the primary part of a key behind one that cannot be read is accepted inside a message, and
on its own its check fails -/
theorem garbage_passed_over :
    rpgpDecryptAndVerify inlineRpgp (inlineMessage (asBytes "addr") [5]) inlineSession
        [garbageKey, signerKey] = .ok ([5], .ok) ∧
      rpgpVerify inlineRpgp.toRpgpSignatures [5] (detachedSignature (asBytes "addr") [5])
        [garbageKey, signerKey] = .error (.key "no armor") := ⟨rfl, rfl⟩

/-- so the two verdicts differ, either way -/
theorem signers_disagree :
    (InlineBy inlineRpgp (asBytes "addr" ++ [1]) [5] (inlineMessage (asBytes "addr" ++ [1]) [5])
        inlineSession ∧
      DetachedBy inlineRpgp (asBytes "addr" ++ [1]) [5]
        (detachedSignature (asBytes "addr" ++ [1]) [5]) ∧
      ¬ SameVerdict inlineRpgp (inlineMessage (asBytes "addr" ++ [1]) [5]) inlineSession [5]
        (detachedSignature (asBytes "addr" ++ [1]) [5]) [signerKey]) ∧
    (InlineBy inlineRpgp (asBytes "addr") [5] (inlineMessage (asBytes "addr") [5]) inlineSession ∧
      DetachedBy inlineRpgp (asBytes "addr") [5] (detachedSignature (asBytes "addr") [5]) ∧
      ¬ SameVerdict inlineRpgp (inlineMessage (asBytes "addr") [5]) inlineSession [5]
        (detachedSignature (asBytes "addr") [5]) [garbageKey, signerKey]) := by
  refine ⟨⟨inlineMessage_by _ _, detachedSignature_by _ _, ?_⟩,
    inlineMessage_by _ _, detachedSignature_by _ _, ?_⟩
  · intro hsame
    obtain ⟨plaintext, hok⟩ := hsame.mpr subkey_refused.2
    rw [subkey_refused.1] at hok
    cases hok
  · intro hsame
    have hok := hsame.mp ⟨_, garbage_passed_over.1⟩
    rw [garbage_passed_over.2] at hok
    cases hok

/-- with one key that can be read, and its primary part as the signer, both accept -/
theorem signers_agree_primary :
    SameVerdict inlineRpgp (inlineMessage (asBytes "addr") [5]) inlineSession [5]
      (detachedSignature (asBytes "addr") [5]) [signerKey] :=
  (signers_agree (inlineMessage_by _ _) (detachedSignature_by _ _) (List.cons_ne_nil _ _)).mpr
    ⟨fun _ => ⟨"addr", List.mem_cons_self, rfl⟩,
      fun _ => ⟨"addr", List.mem_cons_self, List.mem_cons_self⟩⟩

end ProtonDrive
