import ProtonDrive.Core.Scripted
import ProtonDrive.Core.Served

/-!
# The key of a node, from its share down (`client.rs`)

* `LinkChain`        the requests went from a link up to one without a parent, each for the parent of the
                     one before;
* `UnlocksTo`        links whose keys unlock one after the other, the first with the key of the share;
* `ShareTree`        a share in which each node key is locked with the key of its parent;
* `node_key_chain`   in such a tree the key of a node is found, and whatever the server answers, the
                     search ends within 64 requests and finds only keys at the end of an unbroken chain.
-/

set_option linter.unusedVariables false

namespace ProtonDrive
open Encoding Effects Api

def linkGet (shareId linkId : String) : JsonRequest :=
  .bare .get ("/drive/shares/" ++ shareId ++ "/links/" ++ linkId) none

section
variable (K : Crates) (P : OpenPgpCrypto)

/-- the trace asks for the link `id`, its parent and so on, and `links` are the answers -/
inductive LinkChain (shareId : String) : String → Trace host → List Nodes.Link → Prop
  | root {id resp link} (hlink : K.Envelopes Nodes.GetLinkResponse.ofJson resp.body ⟨link⟩)
      (hroot : link.parentLinkId = none) :
      LinkChain shareId id [⟨.requestJson (linkGet shareId id), .ok resp⟩] [link]
  | child {id resp link parent tr links}
      (hlink : K.Envelopes Nodes.GetLinkResponse.ofJson resp.body ⟨link⟩)
      (hparent : link.parentLinkId = some parent) (habove : LinkChain shareId parent tr links) :
      LinkChain shareId id (⟨.requestJson (linkGet shareId id), .ok resp⟩ :: tr) (link :: links)

/-- from the key `k` on, the keys of the links unlock one after the other, and the last is `key` -/
inductive UnlocksTo (key : PrivateKey) : PrivateKey → List Nodes.Link → Prop
  | last : UnlocksTo key key []
  | next {k k' link below}
      (hunlock : decryptNodePrivateKey K P link.nodeKey link.nodePassphrase k = .ok k')
      (hbelow : UnlocksTo key k' below) : UnlocksTo key k (link :: below)

end

/-! ## trees -/

/-- the passphrase of the link was sealed for the public part of `above`, and opens the key of the
link -/
def LockedWith (P : OpenPgpCrypto) (pair : PrivateKey → PublicKey → Prop) (above key : PrivateKey)
    (link : Nodes.Link) : Prop :=
  ∃ secret sessionKey keys signer opts c message pub,
    P.encryptAndSign (asBytes secret) sessionKey keys signer opts c = .ok message ∧
      pub ∈ keys ∧ pair above pub ∧ link.nodePassphrase = armor message .message ∧
      P.decryptKey link.nodeKey secret = .ok key

structure ShareTree (P : OpenPgpCrypto) (pair : PrivateKey → PublicKey → Prop)
    (sharePriv : PrivateKey) where
  link : String → Option Nodes.Link
  key : String → PrivateKey
  locked : ∀ id l, link id = some l → LockedWith P pair (l.parentLinkId.elim sharePriv key) (key id) l

namespace ShareTree
variable {P : OpenPgpCrypto} {pair : PrivateKey → PublicKey → Prop} {sharePriv : PrivateKey}

/-- the links from a node up to a root -/
inductive PathUp (t : ShareTree P pair sharePriv) : String → List Nodes.Link → Prop
  | root {id l} (hlink : t.link id = some l) (hroot : l.parentLinkId = none) : PathUp t id [l]
  | child {id l parent links} (hlink : t.link id = some l) (hparent : l.parentLinkId = some parent)
      (habove : PathUp t parent links) : PathUp t id (l :: links)

/-- the server answers from the tree -/
def ServedBy (t : ShareTree P pair sharePriv) (K : Crates) (shareId : String)
    (serve : Trace host → (c : HostCall) → c.Ans) : Prop :=
  ∀ id l, t.link id = some l → ∀ h,
    Answered K Nodes.GetLinkResponse.ofJson (serve h (.requestJson (linkGet shareId id))) ⟨l⟩

end ShareTree

/-! ## the walk up -/

section
variable {K : Crates} {P : OpenPgpCrypto} {shareId : String} {tr : Trace host}

theorem getLink_ok {id : String} {link : Nodes.Link}
    (h : Runs (getLink K shareId id).run tr (.done (.ok link))) :
    ∃ resp, tr = [⟨.requestJson (linkGet shareId id), .ok resp⟩] ∧
      K.Envelopes Nodes.GetLinkResponse.ofJson resp.body ⟨link⟩ := by
  obtain ⟨r, t, u, rfl, hget, h⟩ := h.bindE_ok
  obtain ⟨rfl, rfl⟩ := pure_ok h
  rw [List.append_nil]
  exact getJson_ok hget

theorem collectChain_ok {room : Nat} {id : String} {links : List Nodes.Link}
    (h : Runs (collectChain K shareId room id).run tr (.done (.ok links))) :
    LinkChain K shareId id tr links := by
  induction room generalizing id tr links with
  | zero => exact absurd h fail_ok
  | succ room ih =>
    obtain ⟨link, t, u, rfl, hget, hk⟩ := h.bindE_ok
    obtain ⟨resp, rfl, henv⟩ := getLink_ok hget
    cases hparent : link.parentLinkId with
    | none =>
      rw [hparent] at hk
      obtain ⟨rfl, rfl⟩ := pure_ok hk
      exact .root henv hparent
    | some parent =>
      rw [hparent] at hk
      obtain ⟨above, v, w, rfl, habove, hk⟩ := hk.bindE_ok
      obtain ⟨rfl, rfl⟩ := pure_ok hk
      rw [List.append_nil]
      exact .child henv hparent (ih habove)

theorem getLink_gives {serve : Trace host → (c : HostCall) → c.Ans} {id : String} {link : Nodes.Link}
    (h : ∀ h, Answered K Nodes.GetLinkResponse.ofJson (serve h (.requestJson (linkGet shareId id))) ⟨link⟩) :
    Gives serve (getLink K shareId id) (· = link) [] :=
  (Gives.getJsonOr h).silentThen (.pure rfl)

theorem getLink_atMost (id : String) : AtMost (getLink K shareId id).run 1 :=
  AtMost.bindE (n := 0) (getJson_atMost _) fun _ => trivial

/-- the walk makes at most as many requests as it has room for links -/
theorem collectChain_atMost (room : Nat) (id : String) :
    AtMost (collectChain K shareId room id).run room := by
  induction room generalizing id with
  | zero => trivial
  | succ room ih =>
    have h : AtMost (collectChain K shareId (room + 1) id).run (1 + room) := by
      refine AtMost.bindE (getLink_atMost id) fun link => ?_
      cases link.parentLinkId with
      | none => trivial
      | some parent => exact AtMost.bindE (n := 0) (ih parent) fun _ => trivial
    rwa [Nat.add_comm 1 room] at h

/-- in a tree the walk finds the links up to the root -/
theorem collectChain_gives {pair : PrivateKey → PublicKey → Prop} {sharePriv : PrivateKey}
    {t : ShareTree P pair sharePriv} {serve : Trace host → (c : HostCall) → c.Ans}
    (hserved : t.ServedBy K shareId serve) {id : String} {links : List Nodes.Link}
    (hpath : t.PathUp id links) {room : Nat} (hroom : links.length ≤ room) :
    Gives serve (collectChain K shareId room id) (· = links) [] := by
  induction hpath generalizing room with
  | @root id l hlink hroot =>
    obtain ⟨room, rfl⟩ := Nat.exists_eq_add_of_le' hroom
    refine (getLink_gives (hserved id l hlink)).silentThen ?_
    rw [hroot]
    exact .pure rfl
  | @child id l parent links hlink hparent _ ih =>
    rw [List.length_cons] at hroom
    obtain ⟨room, rfl⟩ := Nat.exists_eq_add_of_le' (Nat.le_of_add_left_le hroom)
    refine (getLink_gives (hserved id l hlink)).silentThen ?_
    rw [hparent]
    refine (ih (Nat.le_of_succ_le_succ hroom)).silentThen ?_
    exact .pure rfl

/-! ## the fold down -/

theorem unlockChain_concat {k k' key : PrivateKey} {links : List Nodes.Link} {link : Nodes.Link}
    (h : unlockChain K P k links = .ok k')
    (hlast : decryptNodePrivateKey K P link.nodeKey link.nodePassphrase k' = .ok key) :
    unlockChain K P k (links ++ [link]) = .ok key := by
  induction links generalizing k with
  | nil =>
    cases h
    simp only [List.nil_append, unlockChain, hlast]
  | cons l links ih =>
    simp only [List.cons_append, unlockChain] at h ⊢
    cases hl : decryptNodePrivateKey K P l.nodeKey l.nodePassphrase k with
    | error e =>
      rw [hl] at h
      cases h
    | ok next =>
      rw [hl] at h
      exact ih h

theorem unlockChain_ok {k key : PrivateKey} {links : List Nodes.Link}
    (h : unlockChain K P k links = .ok key) : UnlocksTo K P key k links := by
  induction links generalizing k with
  | nil =>
    cases h
    exact .last
  | cons l links ih =>
    simp only [unlockChain] at h
    cases hl : decryptNodePrivateKey K P l.nodeKey l.nodePassphrase k with
    | error e =>
      rw [hl] at h
      cases h
    | ok next =>
      rw [hl] at h
      exact .next hl (ih h)

/-- a link that is locked with a key opens with it -/
theorem LockedWith.unlocks {pair : PrivateKey → PublicKey → Prop} (ideal : IdealCrypto P pair)
    {above key : PrivateKey} {link : Nodes.Link} (h : LockedWith P pair above key link) :
    decryptNodePrivateKey K P link.nodeKey link.nodePassphrase above = .ok key := by
  obtain ⟨secret, sessionKey, keys, signer, opts, c, message, pub, hseal, hpub, hpair, hpass, hkey⟩ := h
  rw [hpass]
  exact unlockKey_sealed ideal hseal hpub hpair hkey

/-- in a tree the fold from the root down finds the key of the node -/
theorem ShareTree.unlockChain_eq {pair : PrivateKey → PublicKey → Prop} (ideal : IdealCrypto P pair)
    {sharePriv : PrivateKey} (t : ShareTree P pair sharePriv) {id : String} {links : List Nodes.Link}
    (hpath : t.PathUp id links) : unlockChain K P sharePriv links.reverse = .ok (t.key id) := by
  induction hpath with
  | @root id l hlink hroot =>
    have hlocked := t.locked id l hlink
    rw [hroot] at hlocked
    show unlockChain K P sharePriv ([] ++ [l]) = .ok (t.key id)
    exact unlockChain_concat rfl (hlocked.unlocks ideal)
  | @child id l parent links hlink hparent _ ih =>
    have hlocked := t.locked id l hlink
    rw [hparent] at hlocked
    rw [List.reverse_cons]
    exact unlockChain_concat ih (hlocked.unlocks ideal)

/-! ## the key -/

variable {client : ProtonDriveClient} {linkId : String} {sharePriv : PrivateKey}

/-- what is known of a search that is over, whatever the server answered -/
structure ChainSearch (K : Crates) (client : ProtonDriveClient) (shareId linkId : String)
    (sharePriv : PrivateKey) (tr : Trace host) (r : Except Fault PrivateKey) : Prop where
  requests : tr.length ≤ 64
  asked : ∀ e ∈ tr, ∃ id, e.call = .requestJson (linkGet shareId id)
  unbroken : ∀ key, r = .ok key → ∃ links, LinkChain K shareId linkId tr links ∧
    UnlocksTo K client.openpgp key sharePriv links.reverse
  unrooted : (∀ links, ¬ LinkChain K shareId linkId tr links) → ∃ e, r = .error (.error e)

theorem within_collectChain (room : Nat) (id : String) :
    Within (S := host) (fun c => ∃ id, c = .requestJson (linkGet shareId id)) Fault.IsError
      (collectChain K shareId room id) := by
  have hQ : ∀ e : Error, Fault.IsError (.error e) := fun _ => trivial
  induction room generalizing id with
  | zero => exact within_fail hQ _
  | succ room ih =>
    refine Within.bind (Within.bind (within_getJson hQ ⟨id, rfl⟩) fun _ => Within.pure _) fun link => ?_
    cases link.parentLinkId with
    | none => exact Within.pure _
    | some parent => exact Within.bind (ih parent) fun _ => Within.pure _

theorem resolveNodeKeyViaChain_search {r : Except Fault PrivateKey}
    (h : Runs (resolveNodeKeyViaChain K client shareId linkId sharePriv).run tr (.done r))
    (hlen : tr.length ≤ 64) : ChainSearch K client shareId linkId sharePriv tr r := by
  have hwithin : Within (S := host) (fun c => ∃ id, c = .requestJson (linkGet shareId id)) Fault.IsError
      (resolveNodeKeyViaChain K client shareId linkId sharePriv) :=
    Within.bind (within_collectChain _ _) fun _ => within_ofExcept (fun _ => trivial) _ _
  have hunbroken : ∀ key, r = .ok key → ∃ links, LinkChain K shareId linkId tr links ∧
      UnlocksTo K client.openpgp key sharePriv links.reverse := by
    rintro key rfl
    obtain ⟨links, t, u, rfl, hchain, hk⟩ := h.bindE_ok
    obtain ⟨rfl, hunlock⟩ := ofExcept_ok hk
    rw [List.append_nil]
    exact ⟨links, collectChain_ok hchain, unlockChain_ok hunlock⟩
  refine ⟨hlen, h.only hwithin.1, hunbroken, fun hno => ?_⟩
  cases r with
  | ok key =>
    obtain ⟨links, hchain, _⟩ := hunbroken key rfl
    exact absurd hchain (hno links)
  | error f =>
    match f, hwithin.error h with
    | .error e, _ => exact ⟨e, rfl⟩

theorem node_key_chain (K : Crates) (client : ProtonDriveClient) (shareId linkId : String)
    (sharePriv : PrivateKey) :
    (∀ {pair : PrivateKey → PublicKey → Prop}, IdealCrypto client.openpgp pair →
      ∀ (t : ShareTree client.openpgp pair sharePriv) {links : List Nodes.Link},
        t.PathUp linkId links → links.length ≤ 64 →
        ∀ {serve : Trace host → (c : HostCall) → c.Ans}, t.ServedBy K shareId serve →
          ∀ h, ∃ tr, Yields serve h (resolveNodeKeyViaChain K client shareId linkId sharePriv) tr
            (t.key linkId)) ∧
    ∀ (serve : Trace host → (c : HostCall) → c.Ans) (h : Trace host), ∃ tr r,
      exec serve h (resolveNodeKeyViaChain K client shareId linkId sharePriv).run = (tr, some r) ∧
        ChainSearch K client shareId linkId sharePriv tr r := by
  constructor
  · intro pair ideal t links hpath hdepth serve hserved h
    have hgives : Gives serve (resolveNodeKeyViaChain K client shareId linkId sharePriv)
        (· = t.key linkId) [] :=
      (collectChain_gives hserved hpath hdepth).silentThen
        (Gives.ofExcept (t.unlockChain_eq ideal hpath))
    obtain ⟨tr, _, hyields, _, rfl⟩ := hgives h
    exact ⟨tr, hyields⟩
  · intro serve h
    have hmost : AtMost (resolveNodeKeyViaChain K client shareId linkId sharePriv).run 64 :=
      AtMost.bindE (n := 0) (collectChain_atMost _ _) fun _ => ofExcept_atMost _ _
    obtain ⟨tr, r, hexec, hlen⟩ := hmost.exec serve h
    have hruns := exec_runs serve h (resolveNodeKeyViaChain K client shareId linkId sharePriv).run r
      (congrArg Prod.snd hexec)
    rw [hexec] at hruns
    exact ⟨tr, r, hexec, resolveNodeKeyViaChain_search hruns hlen⟩

end

/-! ## a file in the root of a share -/

def chainDocs : List Json := [smallRoot, smallFileLink]

def chainCrates : Crates := smallCrates chainDocs

theorem chainDocs_nodup : (chainDocs.map textOf).Nodup := by decide +kernel

/-- the document of a link -/
def chainDoc (id : String) : Option Json :=
  if id = "root" then some smallRoot else if id = "file" then some smallFileLink else none

def chainLink (id : String) : Option Nodes.Link :=
  (chainDoc id).bind fun j => (Nodes.GetLinkResponse.ofJson j).map (·.link)

def chainKey (id : String) : PrivateKey :=
  if id = "root" then { armored := "dir", fingerprintHex := "dir", passphrase := "p" }
  else { armored := "node", fingerprintHex := "node", passphrase := "p" }

def shareKey : PrivateKey := { armored := "shr", fingerprintHex := "shr", passphrase := "p" }

theorem rootLink_read : ∃ l, chainLink "root" = some l ∧ l.parentLinkId = none ∧ l.nodeKey = "dir" ∧
    l.nodePassphrase = sealedFor "shr" (asBytes "p") := ⟨_, rfl, rfl, rfl, rfl⟩

theorem fileLink_read : ∃ l, chainLink "file" = some l ∧ l.parentLinkId = some "root" ∧
    l.nodeKey = "node" ∧ l.nodePassphrase = sealedFor "dir" (asBytes "p") := ⟨_, rfl, rfl, rfl, rfl⟩

theorem chainLink_cases {id : String} {l : Nodes.Link} (h : chainLink id = some l) :
    id = "root" ∨ id = "file" := by
  by_cases hroot : id = "root"
  · exact .inl hroot
  · by_cases hfile : id = "file"
    · exact .inr hfile
    · unfold chainLink chainDoc at h
      rw [if_neg hroot, if_neg hfile] at h
      cases h

/-- a passphrase sealed for a key is locked with it -/
theorem lockedWith_sealedFor (above : PrivateKey) {link : Nodes.Link}
    (h : link.nodePassphrase = sealedFor above.fingerprintHex (asBytes "p")) :
    LockedWith transparentCrypto sameFingerprint above
      { armored := link.nodeKey, fingerprintHex := link.nodeKey, passphrase := "p" } link := by
  obtain ⟨message, hsealed, hseal⟩ := sealedFor_eq above.fingerprintHex (asBytes "p")
  exact ⟨"p", _, _, _, _, _, message, _, hseal, List.mem_singleton.mpr rfl, rfl, h.trans hsealed, rfl⟩

def chainTree : ShareTree transparentCrypto sameFingerprint shareKey where
  link := chainLink
  key := chainKey
  locked id l hl := by
    rcases chainLink_cases hl with rfl | rfl
    · obtain ⟨root, hread, hparent, hkey, hpass⟩ := rootLink_read
      rw [hread] at hl
      cases hl
      have hlocked := lockedWith_sealedFor shareKey hpass
      rw [hkey] at hlocked
      rw [hparent]
      exact hlocked
    · obtain ⟨file, hread, hparent, hkey, hpass⟩ := fileLink_read
      rw [hread] at hl
      cases hl
      have hlocked := lockedWith_sealedFor (chainKey "root") hpass
      rw [hkey] at hlocked
      rw [hparent]
      exact hlocked

theorem chainTree_served : chainTree.ServedBy chainCrates "s" (smallTransfer .null).serve := by
  have hanswer : ∀ (j : Json) (l : Nodes.Link), j ∈ chainDocs →
      ResponseEnvelope.ofJson Nodes.GetLinkResponse.ofJson j =
        some { code := CODE_OK, inner := ⟨l⟩, error := none } →
      Answered chainCrates Nodes.GetLinkResponse.ofJson
        (.ok { status := 200, headers := [], body := textOf j }) ⟨l⟩ :=
    fun j l hj hdec => ⟨_, rfl, smallCrates_envelopes chainDocs_nodup hj hdec⟩
  intro id l hl h
  rcases chainLink_cases hl with rfl | rfl
  · cases hl
    exact hanswer smallRoot _ (by simp [chainDocs]) rfl
  · cases hl
    exact hanswer smallFileLink _ (by simp [chainDocs]) rfl

/-- the key of the file is found -/
theorem node_key_chain_small :
    ∃ tr, Yields (smallTransfer .null).serve [] (resolveNodeKeyViaChain chainCrates smallClient "s" "file"
      shareKey) tr { armored := "node", fingerprintHex := "node", passphrase := "p" } := by
  obtain ⟨root, hroot, hnone, _⟩ := rootLink_read
  obtain ⟨file, hfile, hparent, _⟩ := fileLink_read
  exact (node_key_chain chainCrates smallClient "s" "file" shareKey).1 transparent_ideal chainTree
    (.child hfile hparent (.root hroot hnone)) (show 2 ≤ 64 by decide) chainTree_served []

end ProtonDrive
