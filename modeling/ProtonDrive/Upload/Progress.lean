import ProtonDrive.Upload.Runs

/-!
# Uploads that succeed

* `CanReturn p bs a`     some host makes `p` return `a` after the stream has delivered `bs`; it
                         composes along `>>=`;
* `blockCount`           how many blocks a content of some length is cut into;
* `Working K up`         the server can answer every request of an upload, the keys open, and the
                         crypto library does not fail;
* `runUpload_canReturn`  then an upload of any content of the expected size can return `Ok`.
-/

set_option linter.unusedVariables false

namespace ProtonDrive
open Encoding Effects Api

/-! ## what a program can return -/

/-- `CanReturn p bs Q`: some host makes `p` return a value with `Q` after the stream has delivered
`bs` -/
def CanReturn {α : Type} (p : Sdk α) (bs : Bytes) (Q : α → Prop) : Prop :=
  ∃ tr a, Runs p.run tr (.done (.ok a)) ∧ delivered tr = bs ∧ Q a

namespace CanReturn
variable {α β : Type} {Q : β → Prop}

theorem pure {a : β} (h : Q a) : CanReturn (Pure.pure a) [] Q := ⟨[], a, .ret _, rfl, h⟩

theorem bind {p : Sdk α} {f : α → Sdk β} {bs cs : Bytes} {P : α → Prop} (hp : CanReturn p bs P)
    (hf : ∀ a, P a → CanReturn (f a) cs Q) : CanReturn (p >>= f) (bs ++ cs) Q := by
  obtain ⟨t, a, ht, rfl, ha⟩ := hp
  obtain ⟨u, b, hu, rfl, hb⟩ := hf a ha
  exact ⟨t ++ u, b, Runs.bindE ht hu, delivered_append t u, hb⟩

/-- a first part that reads nothing -/
theorem silentThen {p : Sdk α} {f : α → Sdk β} {cs : Bytes} {P : α → Prop} (hp : CanReturn p [] P)
    (hf : ∀ a, P a → CanReturn (f a) cs Q) : CanReturn (p >>= f) cs Q := hp.bind hf

/-- a second part that reads nothing -/
theorem thenSilent {p : Sdk α} {f : α → Sdk β} {bs : Bytes} {P : α → Prop} (hp : CanReturn p bs P)
    (hf : ∀ a, P a → CanReturn (f a) [] Q) : CanReturn (p >>= f) bs Q := by
  have h := hp.bind hf
  rwa [List.append_nil] at h

/-- a first part that reads nothing and returns `a` -/
theorem after {p : Sdk α} {f : α → Sdk β} {cs : Bytes} {a : α} (hp : CanReturn p [] (· = a))
    (hf : CanReturn (f a) cs Q) : CanReturn (p >>= f) cs Q :=
  hp.bind fun b hb => hb ▸ hf

theorem call (c : HostCall) (a : c.Ans) :
    CanReturn (ProtonDrive.call c) (deliveredBy ⟨c, a⟩) (· = a) :=
  ⟨[⟨c, a⟩], a, .call (.ret _), List.append_nil _, rfl⟩

theorem read {cap : Nat} {bs : Bytes} (h : bs.length ≤ cap) :
    CanReturn (ProtonDrive.call (.read cap)) bs (· = .ok ⟨bs, h⟩) :=
  ⟨[⟨.read cap, .ok ⟨bs, h⟩⟩], _, .call (.ret _), List.append_nil bs, rfl⟩

theorem ofExcept {ε : Type} {f : ε → Error} {r : Except ε α} {a : α} (h : r = .ok a) :
    CanReturn (ProtonDrive.ofExcept f r) [] (· = a) := by
  subst h
  exact pure rfl

theorem require {ok : Bool} {e : Error} (h : ok = true) :
    CanReturn (ProtonDrive.require ok e) [] (· = ()) := by
  subst h
  exact pure rfl

theorem requestJson (req : JsonRequest) (resp : JsonResponse) :
    CanReturn (ProtonDrive.requestJson req) [] (· = resp) :=
  (call (.requestJson req) (.ok resp)).after (ofExcept rfl)

theorem requestBlob (req : BlobRequest) (resp : JsonResponse) :
    CanReturn (ProtonDrive.requestBlob req) [] (· = resp) :=
  (call (.requestBlob req) (.ok resp)).after (ofExcept rfl)

theorem random {op : Coins → Except CryptoError α} {c : Coins} {a : α} (h : op c = .ok a) :
    CanReturn (ProtonDrive.random op) [] (· = a) :=
  (call .coins c).after (ofExcept h)

end CanReturn

/-- the answer with the given body -/
def answer (body : Bytes) : JsonResponse := { status := 200, headers := [], body }

section
variable {K : Crates} {up : ProtonFileUploader} {α : Type} {dec : Json → Option α}

theorem getJson_canReturn {what type path : String} {body : Bytes} {a : α}
    (h : K.Envelopes dec body a) : CanReturn (getJson K what type dec path) [] (· = a) := by
  obtain ⟨error, henv⟩ := h
  refine (CanReturn.requestJson _ (answer body)).after ?_
  refine (CanReturn.ofExcept (fromSlice_of_some henv)).after ?_
  exact (CanReturn.require (decide_eq_true rfl)).after (.pure rfl)

theorem postProbed_canReturn {probeWhat what sep type path : String} {body : Json} {bs : Bytes}
    {a : α} (h : K.Envelopes dec bs a) :
    CanReturn (postProbed K probeWhat what sep type dec path body) [] (· = a) := by
  obtain ⟨error, hprobe⟩ := probe_of_envelopes h
  obtain ⟨error', henv⟩ := h
  refine (CanReturn.requestJson _ (answer bs)).after ?_
  show CanReturn (parseOrSnip K probeWhat sep _ EnvelopeProbe.ofJson bs >>= _) [] (· = a)
  rw [parseOrSnip_eq hprobe, pure_bind]
  refine (CanReturn.require (decide_eq_true rfl)).after ?_
  show CanReturn (parseOrSnip K what sep _ (ResponseEnvelope.ofJson dec) bs >>= _) [] (· = a)
  rw [parseOrSnip_eq henv]
  exact .pure rfl

end

/-! ## a working environment -/

/-- the blocks of a content of `n` bytes -/
def blockCount (n : Nat) : Nat := (n + BLOCK_SIZE - 1) / BLOCK_SIZE

/-- the operations of the library succeed on keys that it made -/
structure Succeeds (P : OpenPgpCrypto) : Prop where
  generateKey : ∀ passphrase, ∃ c r, P.generateKey passphrase {} c = .ok r
  generateSessionKey : ∃ c sk, P.generateSessionKey [] {} c = .ok sk
  publicKey : ∀ key, ∃ pub, P.publicKey key = .ok pub
  encryptAndSign : ∀ {c' sk}, P.generateSessionKey [] {} c' = .ok sk → ∀ data keys signer,
    ∃ c m, P.encryptAndSign data sk keys signer {} c = .ok m
  encrypt : ∀ {c' sk}, P.generateSessionKey [] {} c' = .ok sk → ∀ data keys,
    ∃ c m, P.encrypt data sk keys {} c = .ok m
  encryptSessionKey : ∀ {c' sk}, P.generateSessionKey [] {} c' = .ok sk → ∀ keys,
    ∃ c m, P.encryptSessionKey sk keys c = .ok m
  sign : ∀ data key, ∃ c sig, P.sign data key "" c = .ok sig

/-- the server can answer, the account and the keys are there, the library does not fail -/
structure Working (K : Crates) (up : ProtonFileUploader) : Prop where
  crypto : Succeeds up.openpgp
  hmac : ∀ key msg, ∃ d, K.hmacSha256 key msg = .ok d
  keys : ∃ addressPriv shareBody share sharePriv linkBody link parentPriv hashKey sessionKey plain,
    up.account.addressPrivateKey up.account.primaryEmail = .ok addressPriv ∧
    K.Envelopes Shares.GetShareResponse.ofJson shareBody ⟨share⟩ ∧
    decryptShareKey K up.openpgp share.key share.passphrase addressPriv = .ok sharePriv ∧
    K.Envelopes Nodes.GetLinkResponse.ofJson linkBody ⟨link⟩ ∧
    decryptNodePrivateKey K up.openpgp link.nodeKey link.nodePassphrase sharePriv =
      .ok parentPriv ∧
    link.folderProperties.bind (·.nodeHashKey) = some hashKey ∧
    up.openpgp.decryptSessionKey (asBytes hashKey) [parentPriv] = .ok sessionKey ∧
    up.openpgp.decryptAndVerify (asBytes hashKey) sessionKey [] = .ok plain
  addressId : ∃ id, up.account.addressId up.account.primaryEmail = .ok id
  created : ∃ body file, K.Envelopes Upload.CreateFileResponse.ofJson body file
  verification : ∃ body v code, K.Envelopes VerificationDataResponse.ofJson body v ∧
    Base64.decode v.verificationCode = some code
  links : ∃ body links, K.Envelopes Upload.RequestBlockUploadResponse.ofJson body ⟨links⟩ ∧
    links.length = blockCount up.metadata.expectedSize
  committed : ∃ body j, K.Envelopes some body j

section
variable {K : Crates} {up : ProtonFileUploader}

theorem resolveVolumeId_canReturn (w : Working K up) (shareId : String) :
    ∃ v, CanReturn (resolveVolumeId K shareId) [] (· = v) := by
  obtain ⟨_, _, share, _, _, _, _, _, _, _, _, hshare, _⟩ := w.keys
  exact ⟨share.volumeId, (getJson_canReturn hshare).after (.pure rfl)⟩

theorem resolveParentContext_canReturn (w : Working K up) (shareId : String) :
    ∃ r, CanReturn (resolveParentContext K up shareId) [] (· = r) := by
  obtain ⟨addressPriv, _, share, sharePriv, _, link, parentPriv, hashKey, sessionKey, plain,
    haddr, hshare, hunlock, hlink, hparent, hhash, hsk, hplain⟩ := w.keys
  refine ⟨(parentPriv, plain.1), ?_⟩
  refine (getJson_canReturn hshare).after ?_
  refine (CanReturn.ofExcept haddr).after ?_
  refine (CanReturn.ofExcept hunlock).after ?_
  refine (getJson_canReturn hlink).after ?_
  refine (CanReturn.ofExcept hparent).after ?_
  refine (CanReturn.ofExcept (a := hashKey) (by rw [hhash]; rfl)).after ?_
  refine (CanReturn.ofExcept hsk).after ?_
  exact (CanReturn.ofExcept hplain).after (.pure rfl)

theorem generateNode_canReturn (w : Working K up) :
    CanReturn (generateNode K up) [] fun node =>
      node.addressEmail = up.account.primaryEmail ∧
        ∃ c, up.openpgp.generateSessionKey [] {} c = .ok node.contentSessionKey := by
  obtain ⟨volumeId, hvol⟩ := resolveVolumeId_canReturn w up.parent.volumeId
  obtain ⟨addressPriv, _, _, _, _, _, _, _, _, _, haddr, _⟩ := w.keys
  obtain ⟨c, nodeKey, hkey⟩ := w.crypto.generateKey (up.openpgp.generatePassphrase 0)
  obtain ⟨parent, hparent⟩ := resolveParentContext_canReturn w up.parent.volumeId
  obtain ⟨parentPub, hpub⟩ := w.crypto.publicKey parent.1
  obtain ⟨c', sk, hsk⟩ := w.crypto.generateSessionKey
  obtain ⟨_, m₁, hm₁⟩ := w.crypto.encryptAndSign hsk (asBytes (up.openpgp.generatePassphrase 0))
    [parentPub] addressPriv
  obtain ⟨_, m₂, hm₂⟩ := w.crypto.sign (asBytes (up.openpgp.generatePassphrase 0)) addressPriv
  obtain ⟨_, m₃, hm₃⟩ := w.crypto.encryptSessionKey hsk
    [{ armored := nodeKey.2, fingerprintHex := nodeKey.1.fingerprintHex }]
  obtain ⟨_, m₄, hm₄⟩ := w.crypto.sign sk.data nodeKey.1
  obtain ⟨_, m₅, hm₅⟩ := w.crypto.encryptAndSign hsk (asBytes up.name) [parentPub] addressPriv
  obtain ⟨digest, hdigest⟩ := w.hmac parent.2 (asBytes up.name)
  refine hvol.after ?_
  refine (CanReturn.ofExcept haddr).after ?_
  refine (CanReturn.call .coins (0 : Coins)).after ?_
  refine (CanReturn.random hkey).after ?_
  refine hparent.after ?_
  refine (CanReturn.ofExcept hpub).after ?_
  refine (CanReturn.random hsk).after ?_
  refine (CanReturn.random hm₁).after ?_
  refine (CanReturn.random hm₂).after ?_
  refine (CanReturn.random hsk).after ?_
  refine (CanReturn.random hm₃).after ?_
  refine (CanReturn.random hm₄).after ?_
  refine (CanReturn.random hsk).after ?_
  refine (CanReturn.random hm₅).after ?_
  exact (CanReturn.ofExcept hdigest).after (.pure ⟨rfl, c', hsk⟩)

/-- a draft whose blocks can be made -/
def Usable (up : ProtonFileUploader) (d : Draft) : Prop :=
  d.addressEmail = up.account.primaryEmail ∧
    ∃ c, up.openpgp.generateSessionKey [] {} c = .ok d.contentSessionKey

theorem createDraft_canReturn (w : Working K up) : CanReturn (createDraft K up) [] (Usable up) := by
  obtain ⟨_, file, hfile⟩ := w.created
  obtain ⟨_, v, code, hv, hcode⟩ := w.verification
  refine (generateNode_canReturn w).bind fun node hnode => ?_
  refine CanReturn.after (a := file.file) ((postProbed_canReturn hfile).after (.pure rfl)) ?_
  refine CanReturn.after (a := code) ?_ (.pure hnode)
  refine (getJson_canReturn hv).after ?_
  rw [hcode]
  exact .pure rfl

/-! ## the blocks -/

/-- a read of nothing ends the buffer -/
theorem fillBuffer_canReturn_end (fuel remaining : Nat) (buf : Bytes) :
    CanReturn (fillBuffer (fuel + 1) remaining buf) [] (· = buf) := by
  have hread : ([] : Bytes).length ≤ remaining := Nat.zero_le _
  exact (CanReturn.read hread).after (.pure rfl)

theorem fillBuffer_canReturn {n : Nat} {bs : Bytes} (hn : 0 < n) (h : bs.length ≤ n) :
    CanReturn (fillBuffer n n []) bs (· = bs) := by
  obtain ⟨m, rfl⟩ : ∃ m, n = m + 1 := ⟨n - 1, by omega⟩
  by_cases hnil : bs = []
  · subst hnil
    exact fillBuffer_canReturn_end m _ []
  · refine (CanReturn.read h).thenSilent ?_
    rintro _ rfl
    show CanReturn (if bs = [] then _ else if bs.length = m + 1 then _ else _) [] _
    rw [if_neg hnil]
    by_cases hfull : bs.length = m + 1
    · rw [if_pos hfull]
      exact .pure (List.nil_append bs)
    · rw [if_neg hfull]
      -- there is room left, and the next read finds the end
      have hm : 0 < m := by
        have hpos := List.length_pos_of_ne_nil hnil
        omega
      obtain ⟨k, rfl⟩ : ∃ k, m = k + 1 := ⟨m - 1, by omega⟩
      exact fillBuffer_canReturn_end k _ bs

theorem encryptBlock_canReturn (w : Working K up) {d : Draft} (hd : Usable up d)
    (plaintext : Bytes) : CanReturn (encryptBlock up d plaintext) [] fun _ => True := by
  obtain ⟨_, c, hsk⟩ := hd
  obtain ⟨_, m₁, hm₁⟩ := w.crypto.encryptAndSign hsk plaintext [] d.addressPriv
  obtain ⟨_, m₂, hm₂⟩ := w.crypto.sign plaintext d.addressPriv
  obtain ⟨_, m₃, hm₃⟩ := w.crypto.encrypt hsk m₂ [d.nodePub]
  refine (CanReturn.random hm₁).after ?_
  refine (CanReturn.random hm₂).after ?_
  exact (CanReturn.random hm₃).after (.pure trivial)

theorem BLOCK_SIZE_pos : 0 < BLOCK_SIZE := by decide

theorem blockCount_zero : blockCount 0 = 0 := by decide

theorem blockCount_add (n : Nat) : blockCount (n + BLOCK_SIZE) = blockCount n + 1 := by
  unfold blockCount
  rw [show n + BLOCK_SIZE + BLOCK_SIZE - 1 = n + BLOCK_SIZE - 1 + BLOCK_SIZE by
    have := BLOCK_SIZE_pos
    omega]
  exact Nat.add_div_right _ BLOCK_SIZE_pos

theorem blockCount_of_lt {n : Nat} (hpos : 0 < n) (h : n < BLOCK_SIZE) : blockCount n = 1 := by
  unfold blockCount
  rw [Nat.div_eq_iff BLOCK_SIZE_pos]
  omega

/-- the loop can turn any content into its blocks -/
theorem readBlocks_canReturn (w : Working K up) {d : Draft} (hd : Usable up d) (fuel : Nat)
    (s : Chunks K) {content : Bytes} (h : content.length < fuel * BLOCK_SIZE) :
    CanReturn (readBlocks K up d fuel s) content fun s' =>
      s'.blocks.length = s.blocks.length + blockCount content.length ∧
        s'.totalBytes = s.totalBytes + content.length := by
  induction fuel generalizing s content with
  | zero =>
    rw [Nat.zero_mul] at h
    exact absurd h (Nat.not_lt_zero _)
  | succ fuel ih =>
    have hblock : (content.take BLOCK_SIZE).length ≤ BLOCK_SIZE := List.length_take_le _ _
    refine (CanReturn.call (.isCancelled .upload) false).after ?_
    refine (CanReturn.require rfl).after ?_
    suffices hsplit : CanReturn _ (content.take BLOCK_SIZE ++ content.drop BLOCK_SIZE) _ by
      rwa [List.take_append_drop] at hsplit
    refine (fillBuffer_canReturn BLOCK_SIZE_pos hblock).bind ?_
    rintro _ rfl
    show CanReturn (if content.take BLOCK_SIZE = [] then _ else _) _ _
    by_cases hnil : content.take BLOCK_SIZE = []
    · obtain rfl : content = [] := by
        rcases List.take_eq_nil_iff.mp hnil with hzero | hnil
        · exact absurd hzero BLOCK_SIZE_pos.ne'
        · exact hnil
      rw [if_pos hnil]
      exact .pure ⟨by rw [List.length_nil, blockCount_zero, Nat.add_zero], rfl⟩
    · rw [if_neg hnil]
      have hpos : 0 < content.length := by
        rw [List.length_pos_iff]
        rintro rfl
        exact hnil List.take_nil
      refine (encryptBlock_canReturn w hd _).silentThen fun b _ => ?_
      refine (CanReturn.call (.sendProgress _) ()).after ?_
      by_cases hlt : (content.take BLOCK_SIZE).length < BLOCK_SIZE
      · -- a short block is the last one
        rw [if_pos hlt]
        have hlen : content.length < BLOCK_SIZE := by
          rw [List.length_take] at hlt
          omega
        rw [List.drop_of_length_le hlen.le, List.take_of_length_le hlen.le]
        refine .pure ⟨?_, rfl⟩
        rw [blockCount_of_lt hpos hlen]
        exact List.length_append
      · rw [if_neg hlt]
        have hge : BLOCK_SIZE ≤ content.length := by
          rw [List.length_take] at hlt
          omega
        have hdrop : content.length = (content.drop BLOCK_SIZE).length + BLOCK_SIZE := by
          rw [List.length_drop]
          omega
        have hfuel : (content.drop BLOCK_SIZE).length < fuel * BLOCK_SIZE := by
          rw [Nat.succ_mul] at h
          omega
        obtain ⟨tr, s', hrun, hdel, hblocks, htotal⟩ := ih (s.push (content.take BLOCK_SIZE) b) hfuel
        refine ⟨tr, s', hrun, hdel, ?_, ?_⟩
        · rw [hblocks, hdrop, blockCount_add]
          simp only [Chunks.push, List.length_append, List.length_singleton]
          omega
        · rw [htotal]
          simp only [Chunks.push, List.length_take, Nat.min_eq_left hge]
          omega

/-! ## the links, the posts and the commit -/

theorem putBlocks_canReturn (pairs : List (EncryptedBlock K × Upload.UploadLink)) :
    CanReturn (putBlocks K pairs) [] (· = ()) := by
  induction pairs with
  | nil => exact .pure rfl
  | cons pair rest ih =>
    refine (CanReturn.call (.isCancelled .upload) false).after ?_
    refine (CanReturn.require rfl).after ?_
    refine CanReturn.after (a := ()) ?_ ih
    exact (CanReturn.requestBlob _ (answer [])).after (CanReturn.require rfl)

theorem requestBlocks_canReturn (w : Working K up) {d : Draft} (hd : Usable up d) {s : Chunks K}
    (hpos : 0 < up.metadata.expectedSize) (htotal : s.totalBytes = up.metadata.expectedSize)
    (hblocks : s.blocks.length = blockCount up.metadata.expectedSize) :
    CanReturn (requestBlocks K up d s) [] fun _ => True := by
  obtain ⟨id, hid⟩ := w.addressId
  obtain ⟨_, links, hlinks, hcount⟩ := w.links
  have hne : (!s.blocks.isEmpty) = true := by
    have hlen : 0 < s.blocks.length := by
      rw [hblocks]
      exact Nat.div_pos (by omega) BLOCK_SIZE_pos
    cases hb : s.blocks with
    | nil =>
      rw [hb] at hlen
      exact absurd hlen (Nat.lt_irrefl 0)
    | cons b bs => rfl
  refine (CanReturn.require hne).after ?_
  refine (CanReturn.require (decide_eq_true htotal)).after ?_
  refine (CanReturn.ofExcept (hd.1 ▸ hid)).after ?_
  refine CanReturn.after (a := links) ((postProbed_canReturn hlinks).after (.pure rfl)) ?_
  exact (CanReturn.require (decide_eq_true (hcount.trans hblocks.symm))).after (.pure trivial)

theorem commitRequest_canReturn (w : Working K up) {d : Draft} (s : Chunks K) :
    CanReturn (commitRequest K up d s) [] fun _ => True := by
  obtain ⟨c, sk, hsk⟩ := w.crypto.generateSessionKey
  obtain ⟨_, sig, hsig⟩ := w.crypto.sign (manifestPayload K s.blocks) d.addressPriv
  obtain ⟨_, m, hm⟩ := w.crypto.encryptAndSign hsk (asBytes (buildXattrJson s.totalBytes
    s.blockSizes (Hex.encode (K.sha1 s.hashed).1) up.metadata.modificationTime)) [d.nodePub]
    d.addressPriv
  refine (CanReturn.random hsig).after ?_
  refine (CanReturn.random hsk).after ?_
  exact (CanReturn.random hm).after (.pure trivial)

theorem commitRevision_canReturn (w : Working K up) (d : Draft) (total : Nat)
    (req : Upload.CommitRevisionRequest) :
    CanReturn (commitRevision K d total req) [] (· = ()) := by
  obtain ⟨body, j, error, henv⟩ := w.committed
  refine CanReturn.after (a := ()) ?_ (CanReturn.call (.sendProgress total) ())
  refine (CanReturn.requestJson _ (answer body)).after ?_
  refine (CanReturn.ofExcept (fromSlice_of_some henv)).after ?_
  exact CanReturn.require (decide_eq_true rfl)

/-- where everything works, any content of the expected size can be uploaded -/
theorem runUpload_canReturn (w : Working K up) {content : Bytes} (hpos : 0 < content.length)
    (hsize : content.length = up.metadata.expectedSize) :
    ∃ fuel, CanReturn (runUpload K up fuel) content (· = ()) := by
  refine ⟨content.length + 1, ?_⟩
  have hfuel : content.length < (content.length + 1) * BLOCK_SIZE :=
    Nat.lt_of_lt_of_le (Nat.lt_succ_self _) (Nat.le_mul_of_pos_right _ BLOCK_SIZE_pos)
  refine (createDraft_canReturn w).silentThen fun d hd => ?_
  refine (readBlocks_canReturn w hd _ _ hfuel).thenSilent fun s hs => ?_
  obtain ⟨hblocks, htotal⟩ := hs
  rw [hsize] at hblocks htotal
  refine (requestBlocks_canReturn w hd (hsize ▸ hpos) (htotal.trans (Nat.zero_add _))
    (hblocks.trans (Nat.zero_add _))).silentThen fun sorted _ => ?_
  refine (putBlocks_canReturn _).after ?_
  refine (commitRequest_canReturn w s).silentThen fun req _ => ?_
  exact commitRevision_canReturn w d _ req

end

end ProtonDrive
