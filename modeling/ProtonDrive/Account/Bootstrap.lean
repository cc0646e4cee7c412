import ProtonDrive.Account.Cascade
import ProtonDrive.Core.Rpgp

/-!
# The account that `bootstrap` makes

The private keys, the public keys and the ids of the addresses are filed by three passes that look at
different things.  With ideal keys they agree (`Coherent`): the primary address is an unlocked one of
least order, and what the account answers for an unlocked address is the key, the id and the public
keys of that address, the public part of the key among them.
-/

set_option linter.unusedVariables false

namespace ProtonDrive
open Encoding Effects Api Tables

/-- keys that were read from their armored text -/
def KeysRead (P : AccountCrypto) (keys : List PublicKey) : Prop :=
  ∀ pub ∈ keys, ∃ armored, P.publicKeyFromArmored armored = .ok pub

/-- `pair k pub`: `pub` is the public part of `k`.  A key that can be opened has a public part, and
what it signs verifies under it, among whatever other keys that could be read. -/
structure IdealAddressKeys (P : AccountCrypto) (pair : PrivateKey → PublicKey → Prop) : Prop where
  publicPart : ∀ {armored pass key}, P.decryptKey armored pass = .ok key →
    ∃ pub, P.publicKeyFromArmored armored = .ok pub ∧ pair key pub
  verify : ∀ {data k ctx c sig keys pub}, P.sign data k ctx c = .ok sig → KeysRead P keys →
    pub ∈ keys → pair k pub → P.verify data sig keys = .ok .ok

/-- the first of the laws, for keys that are read by a library that can armor what it has read -/
theorem rpgp_publicPart (R : RpgpKeys) (harmor : ∀ key, ∃ text, R.signedPublicKey key = .ok text)
    {armored pass : String} {key : PrivateKey} (h : rpgpDecryptKey R.toRpgp armored pass = .ok key) :
    ∃ pub, rpgpPublicKeyFromArmored R armored = .ok pub ∧ pub.fingerprintHex = key.fingerprintHex := by
  unfold rpgpDecryptKey at h
  simp only [Results.bind_ok, Results.mapError_ok] at h
  obtain ⟨sec, hsec, inner, _, _, _, hkey⟩ := h
  obtain ⟨text, htext⟩ := harmor sec
  refine ⟨{ armored := text, fingerprintHex := Hex.encode (R.fingerprint sec) }, ?_, ?_⟩
  · unfold rpgpPublicKeyFromArmored
    rw [hsec]
    show (do
      let pubArmored ← (R.signedPublicKey sec).mapError CryptoError.key
      return ({ armored := pubArmored, fingerprintHex := Hex.encode (R.fingerprint sec) } :
        PublicKey)) = _
    rw [htext]
    rfl
  · cases hkey
    rfl

section
variable (P : AccountCrypto) (W : KeyFacts) (K : Crates) (user : Users.User)
  (addresses : List Addresses.Address) (keyPassword : String)

/-- the key of the address that is tried is among those that can be opened -/
def UnlockedAddress (addr : Addresses.Address) : Prop :=
  ∃ ak, selectedKey addr = some ak ∧
    addressPending addr ak ∈ Unlockable W K user addresses keyPassword

/-- what the account answers for `email` belongs to `addr`, and its public keys verify what its
private key signs -/
structure AnswersFor (account : PdtuiAccount) (addr : Addresses.Address) (email : String) : Prop where
  privateKey : ∃ ak key pub, selectedKey addr = some ak ∧ key = W.unlocked (addressPending addr ak) ∧
    account.addressPrivateKey email = .ok key ∧
    P.publicKeyFromArmored ak.privateKey = .ok pub ∧ pub ∈ addressPubs P addr ∧
    ∀ data ctx c sig, P.sign data key ctx c = .ok sig →
      P.verify data sig (addressPubs P addr) = .ok .ok
  publicKeys : account.addressPublicKeys email = .ok (addressPubs P addr)
  id : account.addressId email = .ok addr.id

structure Coherent (account : PdtuiAccount) : Prop where
  /-- the primary address is an unlocked one of least order -/
  primary : ∃ addr ∈ addresses, UnlockedAddress W K user addresses keyPassword addr ∧
    account.primaryEmail = addr.email ∧
    ∀ other ∈ addresses, UnlockedAddress W K user addresses keyPassword other →
      addr.order ≤ other.order
  /-- an unlocked address is answered for under its email, in upper or lower case -/
  answers : ∀ addr ∈ addresses, UnlockedAddress W K user addresses keyPassword addr →
    ∀ email, toAsciiLowercase email = lowerEmail addr → AnswersFor P W account addr email

end

/-! ## the primary address -/

section
variable {addressKeys : KeyMap} {addresses : List Addresses.Address}

/-- the first address is not fallen back on where an address has an open key -/
theorem primaryAddress_least {primary : Addresses.Address}
    (h : primaryAddress addressKeys addresses = some primary)
    (hopen : ∃ addr ∈ addresses, (addressKeys.lookup (lowerEmail addr)).isSome) :
    primary ∈ addresses ∧ (addressKeys.lookup (lowerEmail primary)).isSome ∧
      ∀ other ∈ addresses, (addressKeys.lookup (lowerEmail other)).isSome →
        primary.order ≤ other.order := by
  obtain ⟨addr, haddr, hkey⟩ := hopen
  have hmem : addr ∈ addresses.filter fun a => (addressKeys.lookup (lowerEmail a)).isSome :=
    List.mem_filter.mpr ⟨haddr, hkey⟩
  unfold primaryAddress at h
  cases hleast : (addresses.filter fun a =>
      (addressKeys.lookup (lowerEmail a)).isSome).argmin (·.order) with
  | none =>
    rw [List.argmin_eq_none.mp hleast] at hmem
    cases hmem
  | some least =>
    rw [hleast] at h
    cases h
    obtain ⟨hprimary, hopened⟩ := List.mem_filter.mp (List.argmin_mem hleast)
    refine ⟨hprimary, hopened, ?_⟩
    intro other hother hkey'
    exact List.le_of_mem_argmin (List.mem_filter.mpr ⟨hother, hkey'⟩) hleast

end

/-! ## what the account answers -/

section
variable {P : AccountCrypto} {W : KeyFacts} {K : Crates} {user : Users.User}
  {addresses : List Addresses.Address} {keyPassword userId : String} {addressKeys : KeyMap}
  {account : PdtuiAccount}

theorem found_of_lookup {β : Type} {table : AList fun _ : String => β} {what email key : String}
    {value : β} (hemail : toAsciiLowercase email = key) (h : table.lookup key = some value) :
    PdtuiAccount.found table what email = .ok value := by
  unfold PdtuiAccount.found
  rw [hemail, h]
  rfl

theorem accountOf_ok (h : accountOf P userId keyPassword addressKeys addresses = .ok account) :
    addressKeys.keys ≠ [] ∧ ∃ primary, primaryAddress addressKeys addresses = some primary ∧
      account.primaryEmail = primary.email ∧ account.addressKeys = addressKeys ∧
      account.addressPubKeys = fill (addresses.map fun a => (lowerEmail a, addressPubs P a)) ∧
      account.addressIds = fill (addresses.map fun a => (lowerEmail a, a.id)) := by
  unfold accountOf at h
  by_cases hempty : addressKeys.keys = []
  · rw [if_pos hempty] at h
    cases h
  · rw [if_neg hempty] at h
    refine ⟨hempty, ?_⟩
    cases hprimary : primaryAddress addressKeys addresses with
    | none =>
      rw [hprimary] at h
      cases h
    | some primary =>
      rw [hprimary] at h
      cases h
      exact ⟨primary, rfl, rfl, rfl, rfl, rfl⟩

/-- a key that can be opened is opened by its own passphrase -/
theorem unlockable_opens (hP : IdealUnlock P.toOpenPgpCrypto W) {p : Pending}
    (h : p ∈ Unlockable W K user addresses keyPassword) :
    ∃ pass, P.decryptKey p.armored pass = .ok (W.unlocked p) := by
  have hown : ∃ pass, W.own p.armored = some pass := by
    obtain ⟨_, hdirect | ⟨q, _, token, m, pass, _, _, _, _, hpass⟩⟩ := Closure.mem_least.mp h
    · exact ⟨keyPassword, hdirect⟩
    · exact ⟨pass, hpass⟩
  obtain ⟨pass, hpass⟩ := hown
  refine ⟨pass, hP.opens.mpr ⟨hpass, ?_⟩⟩
  unfold KeyFacts.unlocked
  rw [hpass]
  rfl

/-- the key of an unlocked address is the one filed under it -/
theorem filed_of_unlocked {userKeys : List PrivateKey}
    (hfiled : FiledExactly W user addresses (Unlockable W K user addresses keyPassword) userKeys
      addressKeys) {addr : Addresses.Address} {ak : Addresses.AddressKey} (haddr : addr ∈ addresses)
    (hak : selectedKey addr = some ak)
    (hU : addressPending addr ak ∈ Unlockable W K user addresses keyPassword) :
    addressKeys.lookup (lowerEmail addr) = some (W.unlocked (addressPending addr ak)) :=
  (hfiled.2 _ _).mpr ⟨addr, haddr, rfl, ak, hak, hU, rfl⟩

/-- an address that a key is filed under is unlocked: no other address has its email -/
theorem unlocked_of_filed {userKeys : List PrivateKey}
    (hfiled : FiledExactly W user addresses (Unlockable W K user addresses keyPassword) userKeys
      addressKeys) (hdistinct : (addresses.map lowerEmail).Nodup) {addr : Addresses.Address}
    (haddr : addr ∈ addresses) (h : (addressKeys.lookup (lowerEmail addr)).isSome) :
    UnlockedAddress W K user addresses keyPassword addr := by
  obtain ⟨key, hkey⟩ := Option.isSome_iff_exists.mp h
  obtain ⟨other, hother, hemail, ak, hak, hU, _⟩ := (hfiled.2 _ _).mp hkey
  have hsame : other = addr := List.inj_on_of_nodup_map hdistinct hother haddr hemail
  rw [hsame] at hak hU
  exact ⟨ak, hak, hU⟩

theorem addressPubs_read (P : AccountCrypto) (addr : Addresses.Address) :
    KeysRead P (addressPubs P addr) := by
  intro pub hpub
  obtain ⟨ak, _, hread⟩ := List.mem_filterMap.mp hpub
  exact ⟨ak.privateKey, Results.toOption_some.mp hread⟩

theorem answersFor {pair : PrivateKey → PublicKey → Prop} (hP : IdealUnlock P.toOpenPgpCrypto W)
    (hkeys : IdealAddressKeys P pair) {userKeys : List PrivateKey}
    (hfiled : FiledExactly W user addresses (Unlockable W K user addresses keyPassword) userKeys
      addressKeys) (hdistinct : (addresses.map lowerEmail).Nodup)
    (haccount : accountOf P userId keyPassword addressKeys addresses = .ok account)
    {addr : Addresses.Address} (haddr : addr ∈ addresses)
    (hunlocked : UnlockedAddress W K user addresses keyPassword addr) {email : String}
    (hemail : toAsciiLowercase email = lowerEmail addr) : AnswersFor P W account addr email := by
  obtain ⟨ak, hak, hU⟩ := hunlocked
  obtain ⟨_, primary, _, _, hprivates, hpublics, hids⟩ := accountOf_ok haccount
  have hlookup := filed_of_unlocked hfiled haddr hak hU
  obtain ⟨pass, hopen⟩ := unlockable_opens hP hU
  obtain ⟨pub, hpub, hpair⟩ := hkeys.publicPart hopen
  have hmem : ak ∈ addr.keys := by
    unfold selectedKey at hak
    rcases Option.or_eq_some_iff.mp hak with hfirst | ⟨_, hhead⟩
    · exact List.mem_of_find?_eq_some hfirst
    · exact List.mem_of_mem_head? hhead
  have hlisted : pub ∈ addressPubs P addr := by
    refine List.mem_filterMap.mpr ⟨ak, hmem, ?_⟩
    have hread : P.publicKeyFromArmored ak.privateKey = .ok pub := hpub
    rw [hread]
    rfl
  refine ⟨⟨ak, _, pub, hak, rfl, ?_, hpub, hlisted, ?_⟩, ?_, ?_⟩
  · unfold PdtuiAccount.addressPrivateKey
    rw [hprivates]
    exact found_of_lookup hemail hlookup
  · intro data ctx c sig hsign
    exact hkeys.verify hsign (addressPubs_read P addr) hlisted hpair
  · unfold PdtuiAccount.addressPublicKeys
    rw [hpublics]
    exact found_of_lookup hemail (lookup_fill_map (addressPubs P) hdistinct haddr)
  · unfold PdtuiAccount.addressId
    rw [hids]
    exact found_of_lookup hemail (lookup_fill_map Addresses.Address.id hdistinct haddr)

theorem accountOf_coherent {pair : PrivateKey → PublicKey → Prop}
    (hP : IdealUnlock P.toOpenPgpCrypto W) (hkeys : IdealAddressKeys P pair)
    {userKeys : List PrivateKey}
    (hfiled : FiledExactly W user addresses (Unlockable W K user addresses keyPassword) userKeys
      addressKeys) (hdistinct : (addresses.map lowerEmail).Nodup)
    (haccount : accountOf P userId keyPassword addressKeys addresses = .ok account) :
    Coherent P W K user addresses keyPassword account := by
  constructor
  · obtain ⟨hsome, primary, hprimary, hemail, _, _, _⟩ := accountOf_ok haccount
    have hopen : ∃ addr ∈ addresses, (addressKeys.lookup (lowerEmail addr)).isSome := by
      obtain ⟨email, hmem⟩ := List.exists_mem_of_ne_nil _ hsome
      obtain ⟨key, hkey⟩ := Option.isSome_iff_exists.mp
        (AList.lookup_isSome.mpr (AList.mem_keys.mpr hmem))
      obtain ⟨addr, haddr, rfl, _⟩ := (hfiled.2 _ _).mp hkey
      exact ⟨addr, haddr, Option.isSome_of_mem hkey⟩
    obtain ⟨hmem, hkey, hleast⟩ := primaryAddress_least hprimary hopen
    refine ⟨primary, hmem, unlocked_of_filed hfiled hdistinct hmem hkey, hemail, ?_⟩
    intro other hother hunlocked
    obtain ⟨ak, hak, hU⟩ := hunlocked
    exact hleast other hother (Option.isSome_of_mem (filed_of_unlocked hfiled hother hak hU))
  · intro addr haddr hunlocked email hemail
    exact answersFor hP hkeys hfiled hdistinct haccount haddr hunlocked hemail

/-! ## runs -/

/-- the two answers of the server -/
def AccountFetched (K : Crates) (tr : Trace host) (user : Users.User)
    (addresses : List Addresses.Address) : Prop :=
  ∃ users addrs, tr = [⟨.requestJson (.bare .get "/core/v4/users" none), .ok users⟩,
      ⟨.requestJson (.bare .get "/core/v4/addresses" none), .ok addrs⟩] ∧
    K.Envelopes Users.GetUserResponse.ofJson users.body ⟨user⟩ ∧
    K.Envelopes Addresses.GetAddressesResponse.ofJson addrs.body ⟨addresses⟩

/-- the answers can be read in one way only -/
theorem AccountFetched.unique {tr : Trace host} {user' : Users.User} {addresses' : List Addresses.Address}
    (h : AccountFetched K tr user addresses) (h' : AccountFetched K tr user' addresses') :
    user = user' ∧ addresses = addresses' := by
  obtain ⟨users, addrs, rfl, husers, haddrs⟩ := h
  obtain ⟨users', addrs', htr, husers', haddrs'⟩ := h'
  cases htr
  have huser := envelopes_unique husers husers'
  have haddr := envelopes_unique haddrs haddrs'
  cases huser
  cases haddr
  exact ⟨rfl, rfl⟩

theorem bootstrap_ok {tr : Trace host}
    (h : Runs (bootstrap P K userId keyPassword).run tr (.done (.ok account))) :
    ∃ user addresses userKeys addressKeys, AccountFetched K tr user addresses ∧
      cascadeUnlock P.toOpenPgpCrypto K user addresses keyPassword = .ok (userKeys, addressKeys) ∧
      accountOf P userId keyPassword addressKeys addresses = .ok account := by
  obtain ⟨userResp, t₁, t₂, rfl, h₁, hrest⟩ := h.bindE_ok
  obtain ⟨addrResp, t₃, t₄, rfl, h₂, hunlock⟩ := hrest.bindE_ok
  obtain ⟨⟨userKeys, addressKeys⟩, t₅, t₆, rfl, h₃, hmake⟩ := hunlock.bindE_ok
  obtain ⟨users, rfl, husers⟩ := getJsonOr_ok h₁
  obtain ⟨addrs, rfl, haddrs⟩ := getJsonOr_ok h₂
  obtain ⟨rfl, hcascade⟩ := ofExcept_ok h₃
  obtain ⟨rfl, haccount⟩ := ofExcept_ok hmake
  exact ⟨userResp.user, addrResp.addresses, userKeys, addressKeys,
    ⟨users, addrs, rfl, husers, haddrs⟩, hcascade, haccount⟩

open Classical in
/-- what the cascade returns is what can be opened, filed -/
theorem cascade_filed (hP : IdealUnlock P.toOpenPgpCrypto W) {userKeys : List PrivateKey}
    (hdistinct : (addresses.map lowerEmail).Nodup)
    (h : cascadeUnlock P.toOpenPgpCrypto K user addresses keyPassword =
      .ok (userKeys, addressKeys)) :
    FiledExactly W user addresses (Unlockable W K user addresses keyPassword) userKeys
      addressKeys := by
  obtain ⟨done, hperm, hnodup, hresult⟩ := cascadeUnlock_filed hP K user keyPassword hdistinct
  have hmem : ∀ p, p ∈ done ↔ p ∈ Unlockable W K user addresses keyPassword := by
    intro p
    rw [hperm.mem_iff, List.mem_filter, decide_eq_true_iff]
    exact ⟨And.right, fun hp => ⟨unlockable_mem hp, hp⟩⟩
  rw [hresult] at h
  by_cases hempty : done = []
  · rw [if_pos hempty] at h
    cases h
  · rw [if_neg hempty] at h
    cases h
    exact filedExactly hnodup hmem

/-- an account that `bootstrap` returns is coherent, whatever keys are locked, retired or cannot be
read, as long as no two addresses are the same up to case -/
theorem bootstrap_coherent {pair : PrivateKey → PublicKey → Prop}
    (hP : IdealUnlock P.toOpenPgpCrypto W) (hkeys : IdealAddressKeys P pair) {tr : Trace host}
    (h : Runs (bootstrap P K userId keyPassword).run tr (.done (.ok account))) :
    ∃ user addresses, AccountFetched K tr user addresses ∧
      ((addresses.map lowerEmail).Nodup → Coherent P W K user addresses keyPassword account) := by
  obtain ⟨user, addresses, userKeys, addressKeys, hfetched, hcascade, haccount⟩ := bootstrap_ok h
  refine ⟨user, addresses, hfetched, fun hdistinct => ?_⟩
  exact accountOf_coherent hP hkeys (cascade_filed hP hdistinct hcascade) hdistinct haccount

/-- there is such an account where an address can be unlocked -/
theorem bootstrap_returns (hP : IdealUnlock P.toOpenPgpCrypto W) (userId : String) {tr : Trace host}
    (hfetched : AccountFetched K tr user addresses) (hdistinct : (addresses.map lowerEmail).Nodup)
    {addr : Addresses.Address} (haddr : addr ∈ addresses)
    (hunlocked : UnlockedAddress W K user addresses keyPassword addr) :
    ∃ account, Runs (bootstrap P K userId keyPassword).run tr (.done (.ok account)) := by
  classical
  obtain ⟨ak, hak, hU⟩ := hunlocked
  obtain ⟨done, hperm, hnodup, hresult⟩ := cascadeUnlock_filed hP K user keyPassword hdistinct
  have hdone : addressPending addr ak ∈ done := by
    rw [hperm.mem_iff]
    exact List.mem_filter.mpr ⟨unlockable_mem hU, decide_eq_true hU⟩
  rw [if_neg (List.ne_nil_of_mem hdone)] at hresult
  have hlookup : (fileAll W done).addressKeys.lookup (lowerEmail addr) =
      some (W.unlocked (addressPending addr ak)) :=
    filed_of_unlocked (cascade_filed hP hdistinct hresult) haddr hak hU
  have hkeys : (fileAll W done).addressKeys.keys ≠ [] := by
    apply List.ne_nil_of_mem (a := lowerEmail addr)
    exact AList.mem_keys.mp (AList.lookup_isSome.mp (Option.isSome_of_mem hlookup))
  have hprimary : primaryAddress (fileAll W done).addressKeys addresses ≠ none := by
    unfold primaryAddress
    rw [Ne, Option.or_eq_none_iff, List.head?_eq_none_iff]
    intro hnone
    rw [hnone.2] at haddr
    cases haddr
  have haccount : ∃ account,
      accountOf P userId keyPassword (fileAll W done).addressKeys addresses = .ok account := by
    unfold accountOf
    rw [if_neg hkeys]
    obtain ⟨primary, hsome⟩ := Option.ne_none_iff_exists'.mp hprimary
    rw [hsome]
    exact ⟨_, rfl⟩
  obtain ⟨account, haccount⟩ := haccount
  obtain ⟨users, addrs, rfl, husers, haddrs⟩ := hfetched
  have hkeysRun : Runs (ofExcept id (cascadeUnlock P.toOpenPgpCrypto K user addresses
      keyPassword)).run [] (.done (.ok ((fileAll W done).userKeys,
        (fileAll W done).addressKeys))) := by
    rw [hresult]
    exact .ret _
  have haccountRun : Runs (ofExcept id (accountOf P userId keyPassword
      (fileAll W done).addressKeys addresses)).run [] (.done (.ok account)) := by
    rw [haccount]
    exact .ret _
  refine ⟨account, Runs.bindE_one (getJsonOr_runs husers) ?_⟩
  exact Runs.bindE_one (getJsonOr_runs haddrs) (Runs.bindE_none hkeysRun haccountRun)

end

/-! ## an account with a locked address -/

/-- `twoKeysCrypto` with public keys that have the text of the private ones -/
def twoKeysAccountCrypto : AccountCrypto where
  toOpenPgpCrypto := twoKeysCrypto transparentCrypto
  publicKeyFromArmored armored := .ok { armored, fingerprintHex := armored }

theorem twoKeysAccountCrypto_ideal : IdealAddressKeys twoKeysAccountCrypto sameFingerprint where
  publicPart {armored pass key} h := by
    obtain ⟨_, rfl⟩ := (twoKeysCrypto_ideal transparentCrypto).opens.mp h
    exact ⟨_, rfl, rfl⟩
  verify {data k ctx c sig keys pub} hsign _ hmem hpair := by
    have hsame : transparentCrypto.sign data k "" c = .ok sig := hsign
    exact transparent_ideal.verify hsame hmem hpair

/-- no passphrase opens the key of this address, which comes first -/
def lockedAddress : Addresses.Address where
  id := "addr-0"
  email := "Old@Proton.me"
  order := 0
  keys := [{ id := "ak2", primary := 1, privateKey := "lost", token := none }]

def keyJson (id privateKey : String) (primary : Int) (token : Json) : Json :=
  .obj [("ID", .str id), ("Primary", .num primary), ("PrivateKey", .str privateKey), ("Token", token)]

def usersJson : Json := .obj [("Code", .num 1000), ("User", .obj [("ID", .str "user-1"),
  ("Name", .str "someone"), ("Email", .str "Someone@Proton.me"),
  ("Keys", .arr [keyJson "uk1" "user" 1 .null])])]

def addressesJson : Json := .obj [("Code", .num 1000), ("Addresses", .arr [
  .obj [("ID", .str "addr-0"), ("Email", .str "Old@Proton.me"), ("Order", .num 0),
    ("Keys", .arr [keyJson "ak2" "lost" 1 .null])],
  .obj [("ID", .str "addr-1"), ("Email", .str "Someone@Proton.me"), ("Order", .num 1),
    ("Keys", .arr [keyJson "ak0" "retired" 0 .null, keyJson "ak1" "address" 1 (.str "dG9rZW4=")])]])]

def accountDocs : List Json := [usersJson, addressesJson]

def bootstrapTrace : Trace host :=
  [⟨.requestJson (.bare .get "/core/v4/users" none),
      .ok { status := 200, headers := [], body := textOf usersJson }⟩,
    ⟨.requestJson (.bare .get "/core/v4/addresses" none),
      .ok { status := 200, headers := [], body := textOf addressesJson }⟩]

theorem accountDocs_fetched : AccountFetched (smallCrates accountDocs) bootstrapTrace twoKeysUser
    [lockedAddress, twoKeysAddress] := by
  have hdocs : (accountDocs.map textOf : List Bytes).Nodup := by decide +kernel
  refine ⟨_, _, rfl, ?_, ?_⟩
  · exact smallCrates_envelopes hdocs (by simp [accountDocs]) rfl
  · exact smallCrates_envelopes hdocs (by simp [accountDocs]) rfl

theorem twoKeys_unlocked : UnlockedAddress twoKeys (smallCrates accountDocs) twoKeysUser
    [lockedAddress, twoKeysAddress] "mailbox" twoKeysAddress := by
  have huser : userPending { id := "uk1", primary := 1, privateKey := "user", token := none } ∈
      Unlockable twoKeys (smallCrates accountDocs) twoKeysUser [lockedAddress, twoKeysAddress]
        "mailbox" := Closure.mem_least.mpr ⟨List.mem_cons_self, .inl rfl⟩
  refine ⟨_, rfl, Closure.mem_least.mpr ⟨?_, .inr ⟨_, huser, "dG9rZW4=", asBytes "token", "secret",
    rfl, dearmorPgp_token _, ⟨rfl, rfl⟩, fromUtf8_asBytes "secret", rfl⟩⟩⟩
  exact mem_allPending.mpr (.inr ⟨twoKeysAddress, by simp, _, rfl, rfl⟩)

/-- the address that comes first is passed by, and the id of the other is found under any case -/
theorem bootstrap_coherent_two : ∃ account,
    Runs (bootstrap twoKeysAccountCrypto (smallCrates accountDocs) "user-1" "mailbox").run
      bootstrapTrace (.done (.ok account)) ∧
    account.addressId "SOMEONE@PROTON.ME" = .ok "addr-1" := by
  have hdistinct : ([lockedAddress, twoKeysAddress].map lowerEmail).Nodup := by decide
  have hideal : IdealUnlock twoKeysAccountCrypto.toOpenPgpCrypto twoKeys :=
    twoKeysCrypto_ideal transparentCrypto
  have hmem : twoKeysAddress ∈ [lockedAddress, twoKeysAddress] :=
    List.mem_cons_of_mem _ List.mem_cons_self
  obtain ⟨account, hruns⟩ := bootstrap_returns hideal "user-1" accountDocs_fetched hdistinct hmem
    twoKeys_unlocked
  refine ⟨account, hruns, ?_⟩
  obtain ⟨user, addresses, hfetched, hcoherent⟩ := bootstrap_coherent hideal
    twoKeysAccountCrypto_ideal hruns
  obtain ⟨rfl, rfl⟩ := hfetched.unique accountDocs_fetched
  have hanswers := (hcoherent hdistinct).answers twoKeysAddress hmem twoKeys_unlocked
  exact (hanswers "SOMEONE@PROTON.ME" (by decide)).id

end ProtonDrive
