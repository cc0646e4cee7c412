import Mathlib.Data.List.Permutation
import ProtonDrive.Account.Cascade
import ProtonDrive.App.Auth

/-!
# The salt a login takes

`/core/v4/keys/salts` lists the salts of all keys, each under the id of its key and in no order that is
promised.  `login` takes the first one that is not empty, whichever key it is of.

* `SaltedLogin`            a login that has come as far as the list, and the mailbox password it returns;
* `PrimarySalt`            the salt of the primary user key, and the passphrase made with it;
* `OpensPrimary`           the first round of `cascade_unlock` opens the primary user key;
* `login_keyPassword_primary`
                           the mailbox password is the passphrase of the primary key just if the first
                           salt that is not empty is the salt of that key, and so in every order of the
                           list just if no other salt is in it.
-/

set_option linter.unusedVariables false

namespace ProtonDrive
open Encoding Effects Api

/-! ## a login that gets the salts -/

def keySaltsRequest (auth : Auth.AuthResponse) : JsonRequest :=
  { JsonRequest.bare .get "/core/v4/keys/salts" none with headers := bearerHeaders auth }

/-- after `before` the sign-in with the server `serve` has succeeded, and the salts are sent -/
structure SaltedLogin (S : SrpModule) (K : Crates) (username password : String)
    (salts : List Auth.KeySalt) where
  serve : Trace host → (c : HostCall) → c.Ans
  before : Trace host
  signedIn : Trace host
  auth : Auth.AuthResponse
  resp : JsonResponse
  signed : Yields serve before (signIn S K username password) signedIn auth
  answered : serve (before ++ signedIn) (.requestJson (keySaltsRequest auth)) = .ok resp
  sent : K.Envelopes Auth.KeySaltsResponse.ofJson resp.body ⟨salts⟩

section
variable {S : SrpModule} {K : Crates} {username password : String} {salts : List Auth.KeySalt}

/-- how the login ends -/
def SaltedLogin.result (l : SaltedLogin S K username password salts) :
    Option (Except AuthError Login.Credentials) :=
  (exec l.serve l.before (login S K username password).run).2

/-- the mailbox password, if the login returns its credentials -/
def SaltedLogin.keyPassword (l : SaltedLogin S K username password salts) : Option String := do
  let result ← l.result
  let credentials ← result.toOption
  return credentials.keyPassword

def credentialsOf (username : String) (auth : Auth.AuthResponse) (keyPassword : String) :
    Login.Credentials :=
  { username, uid := auth.uid, userId := auth.userId, accessToken := auth.accessToken,
    refreshToken := auth.refreshToken, keyPassword }

/-- behind the sign-in, the end depends on the salts alone -/
theorem SaltedLogin.result_eq (l : SaltedLogin S K username password salts) :
    l.result = some ((saltedKeyPassword S K password salts).map (credentialsOf username l.auth)) := by
  have hsalts : Yields l.serve (l.before ++ l.signedIn)
      (authGet K "KeySaltsResponse" Auth.KeySaltsResponse.ofJson "/core/v4/keys/salts"
        (bearerHeaders l.auth)) [⟨.requestJson (keySaltsRequest l.auth), .ok l.resp⟩] ⟨salts⟩ :=
    sendParsed_yields l.answered l.sent
  show (exec l.serve l.before (login S K username password).run).2 = _
  unfold login
  rw [exec_bindE l.serve l.before _ _ l.signed, exec_bindE l.serve _ _ _ hsalts]
  show (exec l.serve _ (orAuthError id (saltedKeyPassword S K password salts) >>= _).run).2 = _
  cases saltedKeyPassword S K password salts with
  | ok keyPassword => rfl
  | error e => rfl

/-- what is returned depends on the bytes of the salt only -/
theorem computeKeyPassword_ok {salt pass : String} :
    S.computeKeyPassword K password salt = .ok pass ↔ ∃ bytes hashed,
      Base64.decode salt = some bytes ∧ S.mailboxPasswordHash password bytes = .ok hashed ∧
        fromUtf8 hashed = some pass := by
  unfold SrpModule.computeKeyPassword
  cases hdecode : Base64.decode salt with
  | none => exact ⟨(fun h => nomatch h), fun ⟨bytes, hashed, h, _⟩ => (nomatch h)⟩
  | some bytes =>
    dsimp only
    cases hhash : S.mailboxPasswordHash password bytes with
    | error e =>
      refine ⟨(fun h => nomatch h), fun ⟨_, hashed, h, hh, _⟩ => ?_⟩
      cases h
      rw [hhash] at hh
      cases hh
    | ok hashed =>
      simp only [Results.mapError_ok, strFromUtf8_ok]
      constructor
      · intro h
        exact ⟨bytes, hashed, rfl, hhash, h⟩
      · intro ⟨bytes', hashed', h, hh, hpass⟩
        cases h
        rw [hhash] at hh
        cases hh
        exact hpass

theorem computeKeyPassword_congr {salt salt' pass : String}
    (h : Base64.decode salt = Base64.decode salt') :
    S.computeKeyPassword K password salt = .ok pass ↔
      S.computeKeyPassword K password salt' = .ok pass := by
  rw [computeKeyPassword_ok, computeKeyPassword_ok, h]

/-- the salt that is taken is decoded and encoded again on its way -/
theorem saltedKeyPassword_ok {pass : String} :
    saltedKeyPassword S K password salts = .ok pass ↔ ∃ first,
      salts.find? (fun s => s.keySalt ≠ "") = some first ∧
        S.computeKeyPassword K password first.keySalt = .ok pass := by
  unfold saltedKeyPassword
  cases hfind : salts.find? fun s => s.keySalt ≠ "" with
  | none => exact ⟨(fun h => nomatch h), fun ⟨first, h, _⟩ => (nomatch h)⟩
  | some first =>
    dsimp only
    cases hdecode : Base64.decode first.keySalt with
    | none =>
      refine ⟨(fun h => nomatch h), fun ⟨t, h, hpass⟩ => ?_⟩
      cases h
      obtain ⟨bytes, _, hbytes, _⟩ := computeKeyPassword_ok.mp hpass
      rw [hdecode] at hbytes
      cases hbytes
    | some bytes =>
      have hsame : Base64.decode (Base64.encode bytes) = Base64.decode first.keySalt := by
        rw [Base64.decode_encode, hdecode]
      simp only [Results.mapError_ok]
      rw [computeKeyPassword_congr hsame]
      constructor
      · intro h
        exact ⟨first, rfl, h⟩
      · intro ⟨t, h, hpass⟩
        cases h
        exact hpass

theorem SaltedLogin.keyPassword_eq (l : SaltedLogin S K username password salts) {pass : String} :
    l.keyPassword = some pass ↔ ∃ first,
      salts.find? (fun s => s.keySalt ≠ "") = some first ∧
        S.computeKeyPassword K password first.keySalt = .ok pass := by
  rw [← saltedKeyPassword_ok]
  unfold SaltedLogin.keyPassword
  rw [l.result_eq]
  cases saltedKeyPassword S K password salts with
  | error e => exact ⟨(fun h => nomatch h), (fun h => nomatch h)⟩
  | ok keyPassword =>
    show some keyPassword = some pass ↔ _
    rw [Option.some.injEq, Except.ok.injEq]

end

/-! ## the primary key -/

section
variable {P : OpenPgpCrypto} {W : KeyFacts} {user : Users.User} {addresses : List Addresses.Address}
  {uk : Users.UserKey}

/-- the first round files a user key just if it is tried with its own passphrase -/
theorem directRound_userKeys (hP : IdealUnlock P W) (keyPassword : String) (huk : uk ∈ user.keys) :
    W.unlocked (userPending uk) ∈
        (directRound P keyPassword {} [] (allPending user addresses)).1.userKeys ↔
      W.own uk.privateKey = some keyPassword := by
  obtain ⟨done, left, hdirect, hpass, _⟩ := directRound_pass hP keyPassword
    (allPending user addresses) [] (List.forall_mem_nil _)
  rw [show ({} : Filed) = fileAll W [] from rfl, hdirect, fileAll_userKeys, List.mem_map]
  constructor
  · intro ⟨p, hp, hsame⟩
    have harmored : p.armored = uk.privateKey := congrArg PrivateKey.armored hsame
    have hopens : OpensDirectly W keyPassword p :=
      hpass.sound (S := {p | OpensDirectly W keyPassword p}) (fun _ _ _ _ h => h)
        (List.forall_mem_nil _) p (List.mem_of_mem_filter hp)
    rw [← harmored]
    exact hopens
  · intro hown
    have hmem : userPending uk ∈ done ++ left := by
      rw [hpass.perm.mem_iff, List.nil_append]
      exact List.mem_append_left _ (List.mem_map_of_mem huk)
    refine ⟨userPending uk, List.mem_filter.mpr ⟨?_, decide_eq_true rfl⟩, rfl⟩
    rcases List.mem_append.mp hmem with hmem | hmem
    · exact hmem
    · exact absurd hown (hpass.direct _ hmem)

/-- the first round of `cascade_unlock` with this mailbox password opens the key -/
def OpensPrimary (P : OpenPgpCrypto) (W : KeyFacts) (user : Users.User)
    (addresses : List Addresses.Address) (uk : Users.UserKey) (keyPassword : Option String) : Prop :=
  ∃ kp, keyPassword = some kp ∧ W.unlocked (userPending uk) ∈
    (directRound P kp {} [] (allPending user addresses)).1.userKeys

theorem opensPrimary_iff (hP : IdealUnlock P W) (huk : uk ∈ user.keys) {pass : String}
    (hown : W.own uk.privateKey = some pass) (keyPassword : Option String) :
    OpensPrimary P W user addresses uk keyPassword ↔ keyPassword = some pass := by
  unfold OpensPrimary
  constructor
  · intro ⟨kp, hkp, hmem⟩
    rw [directRound_userKeys hP kp huk, hown] at hmem
    rw [hkp, hmem]
  · intro hkp
    refine ⟨pass, hkp, ?_⟩
    rw [directRound_userKeys hP pass huk]
    exact hown

end

/-- `s` is listed as the salt of the primary user key `uk`, whose passphrase `pass` is the hash of the
mailbox password under it; no other salt of the list gives the same hash -/
structure PrimarySalt (S : SrpModule) (K : Crates) (W : KeyFacts) (password : String)
    (user : Users.User) (salts : List Auth.KeySalt) (uk : Users.UserKey) (s : Auth.KeySalt)
    (pass : String) : Prop where
  key : uk ∈ user.keys
  primary : uk.primary = 1
  listed : s ∈ salts
  ofKey : s.id = uk.id
  nonempty : s.keySalt ≠ ""
  made : S.computeKeyPassword K password s.keySalt = .ok pass
  own : W.own uk.privateKey = some pass
  unlike : ∀ t ∈ salts, S.computeKeyPassword K password t.keySalt = .ok pass →
    Base64.decode t.keySalt = Base64.decode s.keySalt

section
variable {S : SrpModule} {K : Crates} {P : OpenPgpCrypto} {W : KeyFacts} {username password : String}
  {user : Users.User} {addresses : List Addresses.Address} {salts salts' : List Auth.KeySalt}
  {uk : Users.UserKey} {s : Auth.KeySalt} {pass : String}

theorem PrimarySalt.perm (hs : PrimarySalt S K W password user salts uk s pass)
    (hperm : salts'.Perm salts) : PrimarySalt S K W password user salts' uk s pass where
  key := hs.key
  primary := hs.primary
  listed := hperm.mem_iff.mpr hs.listed
  ofKey := hs.ofKey
  nonempty := hs.nonempty
  made := hs.made
  own := hs.own
  unlike := fun t ht => hs.unlike t (hperm.mem_iff.mp ht)

/-- the mailbox password is right just if the salt that is found is the right one -/
theorem PrimarySalt.keyPassword (hs : PrimarySalt S K W password user salts uk s pass)
    (l : SaltedLogin S K username password salts) : l.keyPassword = some pass ↔
      ∃ first, salts.find? (fun t => t.keySalt ≠ "") = some first ∧
        Base64.decode first.keySalt = Base64.decode s.keySalt := by
  rw [l.keyPassword_eq]
  refine exists_congr fun first => and_congr_right fun hfind => ?_
  constructor
  · intro hfirst
    exact hs.unlike first (List.mem_of_find?_eq_some hfind) hfirst
  · intro hsame
    exact (computeKeyPassword_congr hsame).mpr hs.made

/-- the order in which a salt that is not empty comes first -/
theorem perm_first {t : Auth.KeySalt} (ht : t ∈ salts) (hne : t.keySalt ≠ "") :
    (t :: salts.erase t).Perm salts ∧
      (t :: salts.erase t).find? (fun t => t.keySalt ≠ "") = some t := by
  refine ⟨(List.perm_cons_erase ht).symm, ?_⟩
  rw [List.find?_cons_of_pos]
  exact decide_eq_true hne

/-- the salt that is found is right in every order just if no other salt is in the list -/
theorem PrimarySalt.every_order (hs : PrimarySalt S K W password user salts uk s pass) :
    (∀ salts' : List Auth.KeySalt, salts'.Perm salts → ∃ first,
        salts'.find? (fun t => t.keySalt ≠ "") = some first ∧
          Base64.decode first.keySalt = Base64.decode s.keySalt) ↔
      ∀ t ∈ salts, t.keySalt ≠ "" → Base64.decode t.keySalt = Base64.decode s.keySalt := by
  constructor
  · intro hevery t ht hne
    obtain ⟨hperm, hfirst⟩ := perm_first ht hne
    obtain ⟨first, hfind, hsame⟩ := hevery _ hperm
    rw [hfirst] at hfind
    cases hfind
    exact hsame
  · intro hall salts' hperm
    have hs' : s ∈ salts' := hperm.mem_iff.mpr hs.listed
    cases hfind : salts'.find? fun t => t.keySalt ≠ "" with
    | none =>
      have hno := List.find?_eq_none.mp hfind s hs'
      exact absurd (decide_eq_true hs.nonempty) hno
    | some first =>
      have hmem : first ∈ salts := hperm.mem_iff.mp (List.mem_of_find?_eq_some hfind)
      have hne := List.find?_some hfind
      exact ⟨first, rfl, hall first hmem (of_decide_eq_true hne)⟩

/-- the mailbox password a login returns is the passphrase of the primary key, and opens it directly,
just if the first salt that is not empty is the salt of that key.  It is so in every order in which the
list can be sent, and the password is the same in every order, just if no other salt is in the list -/
theorem login_keyPassword_primary (hP : IdealUnlock P W)
    (hs : PrimarySalt S K W password user salts uk s pass)
    (horders : ∀ salts' : List Auth.KeySalt, salts'.Perm salts →
      Nonempty (SaltedLogin S K username password salts')) :
    (∀ l : SaltedLogin S K username password salts,
      (l.keyPassword = some pass ↔ ∃ first, salts.find? (fun t => t.keySalt ≠ "") = some first ∧
        Base64.decode first.keySalt = Base64.decode s.keySalt) ∧
      (OpensPrimary P W user addresses uk l.keyPassword ↔
        ∃ first, salts.find? (fun t => t.keySalt ≠ "") = some first ∧
          Base64.decode first.keySalt = Base64.decode s.keySalt)) ∧
    ((∀ salts' : List Auth.KeySalt, salts'.Perm salts → ∀ l : SaltedLogin S K username password salts',
        l.keyPassword = some pass ∧ OpensPrimary P W user addresses uk l.keyPassword) ↔
      ∀ t ∈ salts, t.keySalt ≠ "" → Base64.decode t.keySalt = Base64.decode s.keySalt) ∧
    ((∀ salts₁ salts₂ : List Auth.KeySalt, salts₁.Perm salts → salts₂.Perm salts →
        ∀ (l₁ : SaltedLogin S K username password salts₁)
          (l₂ : SaltedLogin S K username password salts₂), l₁.keyPassword = l₂.keyPassword) ↔
      ∀ t ∈ salts, t.keySalt ≠ "" → Base64.decode t.keySalt = Base64.decode s.keySalt) := by
  refine ⟨fun l => ⟨hs.keyPassword l, ?_⟩, ?_, ?_⟩
  · rw [opensPrimary_iff hP hs.key hs.own]
    exact hs.keyPassword l
  · rw [← hs.every_order]
    constructor
    · intro hright salts' hperm
      obtain ⟨l⟩ := horders salts' hperm
      exact ((hs.perm hperm).keyPassword l).mp (hright salts' hperm l).1
    · intro hfirst salts' hperm l
      have hpass := ((hs.perm hperm).keyPassword l).mpr (hfirst salts' hperm)
      exact ⟨hpass, (opensPrimary_iff hP hs.key hs.own _).mpr hpass⟩
  · constructor
    · intro hsame t ht hne
      -- the order with `t` in front, and the one with `s` in front
      obtain ⟨hpermt, hfirstt⟩ := perm_first ht hne
      obtain ⟨hperms, hfirsts⟩ := perm_first hs.listed hs.nonempty
      obtain ⟨lt⟩ := horders _ hpermt
      obtain ⟨ls⟩ := horders _ hperms
      have hpasss := ((hs.perm hperms).keyPassword ls).mpr ⟨s, hfirsts, rfl⟩
      rw [hsame _ _ hperms hpermt ls lt] at hpasss
      obtain ⟨first, hfind, hdecode⟩ := ((hs.perm hpermt).keyPassword lt).mp hpasss
      rw [hfirstt] at hfind
      cases hfind
      exact hdecode
    · intro hall salts₁ salts₂ hperm₁ hperm₂ l₁ l₂
      have hfirst := hs.every_order.mpr hall
      rw [((hs.perm hperm₁).keyPassword l₁).mpr (hfirst _ hperm₁),
        ((hs.perm hperm₂).keyPassword l₂).mpr (hfirst _ hperm₂)]

end

/-! ## a list with the salts of two keys -/

def smallSrp : SrpModule where
  generateProofs _ _ _ _ _ _ :=
    .ok { expectedServerProof := "server", clientProof := "client", clientEphemeral := "ephemeral" }
  mailboxPasswordHash _ salt := .ok (asBytes (if salt = [2] then "mailbox" else "stranger"))

def smallAuthInfo : Json :=
  .obj [("Code", .num 1000), ("Version", .num 4), ("Modulus", .str "n"),
    ("ServerEphemeral", .str "b"), ("Salt", .str "s"), ("SRPSession", .str "x")]

def smallAuth : Json :=
  .obj [("Code", .num 1000), ("UID", .str "uid"), ("AccessToken", .str "access"),
    ("RefreshToken", .str "refresh"), ("ServerProof", .str "server")]

def smallSalts (salts : List Auth.KeySalt) : Json :=
  .obj [("Code", .num 1000), ("KeySalts", .arr (salts.map fun s =>
    .obj [("ID", .str s.id), ("KeySalt", .str s.keySalt)]))]

def saltOfUser : Auth.KeySalt := { id := "uk1", keySalt := "Ag==" }

def saltOfAddress : Auth.KeySalt := { id := "ak1", keySalt := "AQ==" }

def smallSaltDocs : List Json :=
  [smallAuthInfo, smallAuth, smallSalts [saltOfAddress, saltOfUser],
    smallSalts [saltOfUser, saltOfAddress]]

def saltedScript (salts : List Auth.KeySalt) : Script where
  json _ path :=
    if path = "/core/v4/auth/info" then textOf smallAuthInfo
    else if path = "/core/v4/auth" then textOf smallAuth
    else textOf (smallSalts salts)
  blob _ := { status := 200, headers := [], body := [] }
  stream := []

theorem smallSaltDocs_nodup : (smallSaltDocs.map textOf).Nodup := by decide +kernel

def smallAuthResponse : Auth.AuthResponse where
  uid := "uid"
  accessToken := "access"
  refreshToken := "refresh"
  serverProof := "server"
  userId := ""
  twoFactor := { enabled := 0 }

/-- the list in the one order and in the other -/
theorem saltedScript_login (salts : List Auth.KeySalt)
    (hsalts : salts = [saltOfAddress, saltOfUser] ∨ salts = [saltOfUser, saltOfAddress]) :
    Nonempty (SaltedLogin smallSrp (smallCrates smallSaltDocs) "me" "pw" salts) := by
  have hinfo : (smallCrates smallSaltDocs).Envelopes Auth.AuthInfoResponse.ofJson (textOf smallAuthInfo)
      { version := 4, modulus := "n", serverEphemeral := "b", salt := "s", srpSession := "x" } :=
    smallCrates_envelopes smallSaltDocs_nodup (by simp [smallSaltDocs]) rfl
  have hauth : (smallCrates smallSaltDocs).Envelopes Auth.AuthResponse.ofJson (textOf smallAuth)
      smallAuthResponse :=
    smallCrates_envelopes smallSaltDocs_nodup (by simp [smallSaltDocs]) rfl
  have hsent : (smallCrates smallSaltDocs).Envelopes Auth.KeySaltsResponse.ofJson
      (textOf (smallSalts salts)) ⟨salts⟩ := by
    rcases hsalts with rfl | rfl
    · exact smallCrates_envelopes smallSaltDocs_nodup (by simp [smallSaltDocs]) rfl
    · exact smallCrates_envelopes smallSaltDocs_nodup (by simp [smallSaltDocs]) rfl
  have hsigned : ∃ tr, Yields (saltedScript salts).serve [] (signIn smallSrp (smallCrates smallSaltDocs)
      "me" "pw") tr smallAuthResponse :=
    ⟨_, (sendParsed_yields rfl hinfo).bind ((perform_yields _).bind ((Yields.pure _).bind
      ((sendParsed_yields rfl hauth).bind (Yields.pure smallAuthResponse))))⟩
  obtain ⟨tr, hsigned⟩ := hsigned
  exact ⟨{ serve := (saltedScript salts).serve, before := [], signedIn := tr, auth := smallAuthResponse,
           resp := _, signed := hsigned, answered := rfl, sent := hsent }⟩

def twoKeysUserKey : Users.UserKey where
  id := "uk1"
  primary := 1
  privateKey := "user"
  token := none

/-- in every order of the list the second of the two salts is that of the primary key -/
theorem smallSalts_primary {salts : List Auth.KeySalt}
    (hperm : salts.Perm [saltOfAddress, saltOfUser]) :
    PrimarySalt smallSrp (smallCrates smallSaltDocs) twoKeys "pw" twoKeysUser salts twoKeysUserKey
      saltOfUser "mailbox" := by
  suffices h : PrimarySalt smallSrp (smallCrates smallSaltDocs) twoKeys "pw" twoKeysUser
      [saltOfAddress, saltOfUser] twoKeysUserKey saltOfUser "mailbox" from h.perm hperm
  refine ⟨List.mem_singleton_self _, rfl, List.mem_cons_of_mem _ (List.mem_singleton_self _), rfl,
    by decide, by decide +kernel, rfl, ?_⟩
  intro t ht hmade
  rcases List.mem_cons.mp ht with rfl | ht
  · exact absurd hmade (by decide +kernel)
  · rw [List.mem_singleton.mp ht]

/-- with the salt of the address key in front, no key of the account opens -/
theorem login_strangerSalt : ∃ l : SaltedLogin smallSrp (smallCrates smallSaltDocs) "me" "pw"
    [saltOfAddress, saltOfUser],
    saltOfUser.id = twoKeysUserKey.id ∧ saltOfUser.keySalt ≠ "" ∧
    smallSrp.computeKeyPassword (smallCrates smallSaltDocs) "pw" saltOfUser.keySalt = .ok "mailbox" ∧
    l.keyPassword = some "stranger" ∧
    ¬ OpensPrimary (twoKeysCrypto transparentCrypto) twoKeys twoKeysUser [twoKeysAddress]
      twoKeysUserKey l.keyPassword ∧
    cascadeUnlock (twoKeysCrypto transparentCrypto) (smallCrates []) twoKeysUser [twoKeysAddress]
      "stranger" =
        .error (.decryption "no keys could be unlocked (tried direct + token-based cascade)") := by
  obtain ⟨l⟩ := saltedScript_login [saltOfAddress, saltOfUser] (.inl rfl)
  have hstranger : l.keyPassword = some "stranger" :=
    l.keyPassword_eq.mpr ⟨saltOfAddress, rfl, by decide +kernel⟩
  refine ⟨l, rfl, by decide, by decide +kernel, hstranger, ?_, ?_⟩
  · rw [opensPrimary_iff (twoKeysCrypto_ideal _) (List.mem_singleton_self _) rfl, hstranger]
    decide
  · unfold cascadeUnlock
    rw [show directRound (twoKeysCrypto transparentCrypto) "stranger" {} []
        (allPending twoKeysUser [twoKeysAddress]) =
          ({}, allPending twoKeysUser [twoKeysAddress]) from rfl]
    dsimp only
    rw [tokenRounds, if_pos (Or.inr rfl)]
    exact if_pos ⟨rfl, rfl⟩

/-- with the salt of the user key in front, the login returns the passphrase that opens the primary key -/
theorem login_keyPassword_two : ∃ l : SaltedLogin smallSrp (smallCrates smallSaltDocs) "me" "pw"
    [saltOfUser, saltOfAddress], l.keyPassword = some "mailbox" ∧
      OpensPrimary (twoKeysCrypto transparentCrypto) twoKeys twoKeysUser [twoKeysAddress]
        twoKeysUserKey l.keyPassword := by
  have hperm : [saltOfUser, saltOfAddress].Perm [saltOfAddress, saltOfUser] := List.Perm.swap _ _ _
  have horders : ∀ salts : List Auth.KeySalt, salts.Perm [saltOfUser, saltOfAddress] →
      Nonempty (SaltedLogin smallSrp (smallCrates smallSaltDocs) "me" "pw" salts) := by
    intro salts hsalts
    refine saltedScript_login salts ?_
    have hmem := List.mem_permutations'.mpr hsalts
    rw [show List.permutations' [saltOfUser, saltOfAddress] =
      [[saltOfUser, saltOfAddress], [saltOfAddress, saltOfUser]] from rfl] at hmem
    simpa [or_comm] using hmem
  obtain ⟨l⟩ := horders _ (.refl _)
  have hprimary : (l.keyPassword = some "mailbox" ↔ _) ∧
      (OpensPrimary (twoKeysCrypto transparentCrypto) twoKeys twoKeysUser [twoKeysAddress]
        twoKeysUserKey l.keyPassword ↔ _) :=
    (login_keyPassword_primary (twoKeysCrypto_ideal transparentCrypto) (smallSalts_primary hperm)
      horders).1 l
  have hfirst : ∃ first, [saltOfUser, saltOfAddress].find? (fun t => t.keySalt ≠ "") = some first ∧
      Base64.decode first.keySalt = Base64.decode saltOfUser.keySalt := ⟨saltOfUser, rfl, rfl⟩
  exact ⟨l, hprimary.1.mpr hfirst, hprimary.2.mpr hfirst⟩

end ProtonDrive
