import ProtonDrive.Lib.Closure
import ProtonDrive.Core.Scripted
import ProtonDrive.Core.Transparent
import ProtonDrive.Lib.Results
import ProtonDrive.App.Account
import Mathlib.Data.List.Induction

/-!
# What `cascade_unlock` unlocks

With ideal keys (`IdealUnlock`: a key opens by its own passphrase only, a message is read with the keys
it is encrypted to) the keys that are returned are the least set that contains those the mailbox
password opens, and with a key every one whose token it decrypts (`Unlockable`), in whatever order
the keys, the addresses and the tokens are given.

`fileAll done` is what the code has filed after it opened the keys `done`, in that order; a round of
the code is a pass of `Closure` over the keys that are left.
-/

set_option linter.unusedVariables false

namespace ProtonDrive
open Encoding Api Closure

/-! ## ideal keys -/

structure KeyFacts where
  /-- the passphrase of an armored key -/
  own : String → Option String
  fingerprintHex : String → String
  /-- the armored keys a message is encrypted to -/
  recipient : Bytes → String → Prop
  plaintext : Bytes → Bytes

def KeyFacts.Open (W : KeyFacts) (k : PrivateKey) : Prop := W.own k.armored = some k.passphrase

structure IdealUnlock (P : OpenPgpCrypto) (W : KeyFacts) : Prop where
  opens : ∀ {armored pass key}, P.decryptKey armored pass = .ok key ↔ W.own armored = some pass ∧
    key = { armored, fingerprintHex := W.fingerprintHex armored, passphrase := pass }
  sessionKey : ∀ {m pool}, (∀ k ∈ pool, W.Open k) →
    ((∃ sk, P.decryptSessionKey m pool = .ok sk) ↔ ∃ k ∈ pool, W.recipient m k.armored)
  message : ∀ {m pool sk}, (∀ k ∈ pool, W.Open k) → P.decryptSessionKey m pool = .ok sk →
    ∃ status, P.decryptAndVerify m sk [] = .ok (W.plaintext m, status)

section
variable (W : KeyFacts) (K : Crates)

/-- the key of an entry, once it is open -/
def KeyFacts.unlocked (p : Pending) : PrivateKey :=
  { armored := p.armored, fingerprintHex := W.fingerprintHex p.armored,
    passphrase := (W.own p.armored).getD "" }

def OpensDirectly (keyPassword : String) (p : Pending) : Prop := W.own p.armored = some keyPassword

/-- the token of `p` can be read with the key of `q`, and has the passphrase of `p` in it -/
def TokenOpens (q p : Pending) : Prop :=
  ∃ token m pass, p.token = some token ∧ dearmorPgp K token = .ok m ∧ W.recipient m q.armored ∧
    fromUtf8 (W.plaintext m) = some pass ∧ W.own p.armored = some pass

def Unlockable (user : Users.User) (addresses : List Addresses.Address) (keyPassword : String) :
    Set Pending :=
  least {p | p ∈ allPending user addresses} (OpensDirectly W keyPassword) (TokenOpens W K)

/-! ## what is filed -/

def fileAll (done : List Pending) : Filed :=
  done.foldl (fun filed p => filed.file p.dest (W.unlocked p)) {}

def Dest.email? : Dest → Option String
  | .user => none
  | .address email => some email

end

section
variable {P : OpenPgpCrypto} {W : KeyFacts} {K : Crates} {done pending : List Pending}

theorem fileAll_concat (done : List Pending) (p : Pending) :
    fileAll W (done ++ [p]) = (fileAll W done).file p.dest (W.unlocked p) := List.foldl_concat _ _ _ _

theorem fileAll_pool (done : List Pending) : (fileAll W done).pool = done.map W.unlocked := by
  induction done using List.reverseRecOn with
  | nil => rfl
  | append_singleton done p ih =>
    rw [fileAll_concat, List.map_append, ← ih]
    cases p.dest <;> rfl

theorem fileAll_userKeys (done : List Pending) :
    (fileAll W done).userKeys = (done.filter fun p => p.dest = .user).map W.unlocked := by
  induction done using List.reverseRecOn with
  | nil => rfl
  | append_singleton done p ih =>
    rw [fileAll_concat, List.filter_append, List.map_append, ← ih]
    cases hdest : p.dest <;> simp [Filed.file, hdest]

theorem fileAll_addressKeys (done : List Pending)
    (hnodup : (done.filterMap fun p => p.dest.email?).Nodup) (email : String) (key : PrivateKey) :
    (fileAll W done).addressKeys.lookup email = some key ↔
      ∃ p ∈ done, p.dest = .address email ∧ key = W.unlocked p := by
  induction done using List.reverseRecOn with
  | nil => simp [fileAll]
  | append_singleton done p ih =>
    rw [List.filterMap_append] at hnodup
    have ih := ih hnodup.of_append_left
    rw [fileAll_concat]
    cases hdest : p.dest with
    | user =>
      simp only [Filed.file]
      rw [ih]
      constructor
      · intro ⟨q, hq, h⟩
        exact ⟨q, List.mem_append_left _ hq, h⟩
      · intro ⟨q, hq, hqd, h⟩
        rcases List.mem_append.mp hq with hq | hq
        · exact ⟨q, hq, hqd, h⟩
        · rw [List.mem_singleton.mp hq, hdest] at hqd
          cases hqd
    | address e =>
      simp only [Filed.file]
      have hfresh : ∀ q ∈ done, q.dest ≠ .address e := by
        intro q hq hqd
        refine List.disjoint_of_nodup_append hnodup (a := e)
          (List.mem_filterMap.mpr ⟨q, hq, by rw [hqd]; rfl⟩) ?_
        exact List.mem_filterMap.mpr ⟨p, List.mem_singleton_self p, by rw [hdest]; rfl⟩
      by_cases he : email = e
      · subst he
        rw [AList.lookup_insert]
        constructor
        · intro h
          exact ⟨p, List.mem_append_right _ (List.mem_singleton_self p), hdest,
            (Option.some.inj h).symm⟩
        · intro ⟨q, hq, hqd, h⟩
          rcases List.mem_append.mp hq with hq | hq
          · exact absurd hqd (hfresh q hq)
          · rw [h, List.mem_singleton.mp hq]
      · rw [AList.lookup_insert_ne he, ih]
        constructor
        · intro ⟨q, hq, h⟩
          exact ⟨q, List.mem_append_left _ hq, h⟩
        · intro ⟨q, hq, hqd, h⟩
          rcases List.mem_append.mp hq with hq | hq
          · exact ⟨q, hq, hqd, h⟩
          · rw [List.mem_singleton.mp hq, hdest] at hqd
            cases hqd
            exact absurd rfl he

/-! ## rounds are passes -/

theorem decryptTokenAndUnlock_ok (hP : IdealUnlock P W) {token armored : String}
    {pool : List PrivateKey} (hpool : ∀ k ∈ pool, W.Open k) (key : PrivateKey) :
    decryptTokenAndUnlock P K token armored pool = .ok key ↔
      ∃ m pass, dearmorPgp K token = .ok m ∧ (∃ k ∈ pool, W.recipient m k.armored) ∧
        fromUtf8 (W.plaintext m) = some pass ∧ P.decryptKey armored pass = .ok key := by
  unfold decryptTokenAndUnlock
  simp only [Results.bind_ok, Results.mapError_ok, strFromUtf8_ok]
  constructor
  · intro ⟨m, hm, sk, hsk, ⟨bytes, status⟩, hbytes, pass, hpass, hkey⟩
    obtain ⟨status', hplain⟩ := hP.message hpool hsk
    rw [hbytes] at hplain
    cases hplain
    exact ⟨m, pass, hm, (hP.sessionKey hpool).mp ⟨sk, hsk⟩, hpass, hkey⟩
  · intro ⟨m, pass, hm, hrecipient, hpass, hkey⟩
    obtain ⟨sk, hsk⟩ := (hP.sessionKey hpool).mpr hrecipient
    obtain ⟨status, hplain⟩ := hP.message hpool hsk
    exact ⟨m, hm, sk, hsk, (W.plaintext m, status), hplain, pass, hpass, hkey⟩

theorem fileAll_open (hdone : ∀ p ∈ done, (W.own p.armored).isSome) :
    ∀ k ∈ (fileAll W done).pool, W.Open k := by
  rw [fileAll_pool]
  intro k hk
  obtain ⟨p, hp, rfl⟩ := List.mem_map.mp hk
  obtain ⟨pass, hpass⟩ := Option.isSome_iff_exists.mp (hdone p hp)
  show W.own p.armored = some ((W.own p.armored).getD "")
  rw [hpass]
  rfl

theorem token_opens (hP : IdealUnlock P W) (hdone : ∀ p ∈ done, (W.own p.armored).isSome)
    (p : Pending) :
    (∃ token key, p.token = some token ∧
      decryptTokenAndUnlock P K token p.armored (fileAll W done).pool = .ok key) ↔
    ∃ q ∈ done, TokenOpens W K q p := by
  have hpool := fileAll_open hdone
  constructor
  · intro ⟨token, key, htoken, hkey⟩
    obtain ⟨m, pass, hm, ⟨k, hk, hrecipient⟩, hpass, hopen⟩ :=
      (decryptTokenAndUnlock_ok hP hpool key).mp hkey
    rw [fileAll_pool] at hk
    obtain ⟨q, hq, rfl⟩ := List.mem_map.mp hk
    exact ⟨q, hq, token, m, pass, htoken, hm, hrecipient, hpass, (hP.opens.mp hopen).1⟩
  · intro ⟨q, hq, token, m, pass, htoken, hm, hrecipient, hpass, hown⟩
    have hk : W.unlocked q ∈ (fileAll W done).pool := by
      rw [fileAll_pool]
      exact List.mem_map_of_mem hq
    exact ⟨token, _, htoken, (decryptTokenAndUnlock_ok hP hpool _).mpr
      ⟨m, pass, hm, ⟨_, hk, hrecipient⟩, hpass, hP.opens.mpr ⟨hown, rfl⟩⟩⟩

theorem unlocked_of_opens (hP : IdealUnlock P W) {p : Pending} {pass : String} {key : PrivateKey}
    (h : P.decryptKey p.armored pass = .ok key) :
    (W.own p.armored).isSome ∧ key = W.unlocked p := by
  obtain ⟨hown, rfl⟩ := hP.opens.mp h
  unfold KeyFacts.unlocked
  rw [hown]
  exact ⟨rfl, rfl⟩

theorem open_concat (hdone : ∀ p ∈ done, (W.own p.armored).isSome) {p : Pending}
    (hp : (W.own p.armored).isSome) : ∀ q ∈ done ++ [p], (W.own q.armored).isSome := by
  intro q hq
  rcases List.mem_append.mp hq with hq | hq
  · exact hdone q hq
  · rw [List.mem_singleton.mp hq]
    exact hp

theorem directRound_pass (hP : IdealUnlock P W) (keyPassword : String) (ps still : List Pending)
    (hdone : ∀ p ∈ done, (W.own p.armored).isSome) :
    ∃ done' left, directRound P keyPassword (fileAll W done) still ps =
        (fileAll W done', still ++ left) ∧
      Pass (fun _ => OpensDirectly W keyPassword) done ps done' left ∧
      ∀ p ∈ done', (W.own p.armored).isSome := by
  induction ps generalizing done still with
  | nil => exact ⟨done, [], by rw [directRound, List.append_nil], .nil done, hdone⟩
  | cons p rest ih =>
    rw [directRound]
    cases hkey : P.decryptKey p.armored keyPassword with
    | ok key =>
      obtain ⟨hown, rfl⟩ := unlocked_of_opens hP hkey
      obtain ⟨done', left, heq, hpass, hdone'⟩ := ih still (open_concat hdone hown)
      rw [fileAll_concat] at heq
      exact ⟨done', left, heq, .opened (hP.opens.mp hkey).1 hpass, hdone'⟩
    | error e =>
      obtain ⟨done', left, heq, hpass, hdone'⟩ := ih (still ++ [p]) hdone
      refine ⟨done', p :: left, ?_, .kept (fun hown => ?_) hpass, hdone'⟩
      · rw [← List.append_cons] at heq
        exact heq
      · rw [hP.opens.mpr ⟨hown, rfl⟩] at hkey
        cases hkey

theorem tokenRound_progress (filed : Filed) (next ps : List Pending) :
    (tokenRound P K filed next true ps).progress = true := by
  induction ps generalizing filed next with
  | nil => rfl
  | cons p rest ih =>
    obtain ⟨token, key, _, _, heq⟩ | ⟨_, heq⟩ := tokenRound_cons P K filed next true p rest
    · rw [heq]
      exact ih _ _
    · rw [heq]
      exact ih _ _

theorem tokenRound_pass (hP : IdealUnlock P W) (ps next : List Pending)
    (hdone : ∀ p ∈ done, (W.own p.armored).isSome) (progress : Bool) :
    ∃ done' left progress', tokenRound P K (fileAll W done) next progress ps =
        { filed := fileAll W done', pending := next ++ left, progress := progress' } ∧
      Pass (fun done x => ∃ y ∈ done, TokenOpens W K y x) done ps done' left ∧
      (∀ p ∈ done', (W.own p.armored).isSome) ∧ (progress' = false → done' = done) := by
  induction ps generalizing done next progress with
  | nil => exact ⟨done, [], progress, by rw [tokenRound, List.append_nil], .nil done, hdone, fun _ => rfl⟩
  | cons p rest ih =>
    obtain ⟨token, key, htoken, hkey, heq⟩ | ⟨hkept, heq⟩ :=
      tokenRound_cons P K (fileAll W done) next progress p rest
    · have hopens := (token_opens hP hdone p).mp ⟨token, key, htoken, hkey⟩
      obtain ⟨m, pass, _, _, _, hopen⟩ :=
        (decryptTokenAndUnlock_ok hP (fileAll_open hdone) key).mp hkey
      obtain ⟨hown, rfl⟩ := unlocked_of_opens hP hopen
      obtain ⟨done', left, progress', hround, hpass, hdone', hstill⟩ :=
        ih next (open_concat hdone hown) true
      rw [fileAll_concat] at hround
      have hprogress := tokenRound_progress (P := P) (K := K)
        ((fileAll W done).file p.dest (W.unlocked p)) next rest
      rw [hround] at hprogress
      rw [heq]
      refine ⟨done', left, progress', hround, .opened hopens hpass, hdone', fun hfalse => ?_⟩
      rw [hfalse] at hprogress
      cases hprogress
    · obtain ⟨done', left, progress', hround, hpass, hdone', hstill⟩ :=
        ih (next ++ [p]) hdone progress
      rw [heq]
      refine ⟨done', p :: left, progress', ?_, .kept (fun hopens => ?_) hpass, hdone', hstill⟩
      · rw [← List.append_cons] at hround
        exact hround
      · obtain ⟨token, key, htoken, hkey⟩ := (token_opens hP hdone p).mpr hopens
        exact hkept token key htoken hkey

theorem tokenRounds_passes (hP : IdealUnlock P W) (done pending : List Pending)
    (hdone : ∀ p ∈ done, (W.own p.armored).isSome) :
    ∃ done' left, tokenRounds P K (fileAll W done) pending = (fileAll W done', left) ∧
      Passes (fun done x => ∃ y ∈ done, TokenOpens W K y x) done pending done' left := by
  induction hn : pending.length using Nat.strong_induction_on generalizing done pending with
  | _ n ih =>
    obtain ⟨done', left, progress, hround, hpass, hdone', hstill⟩ :=
      tokenRound_pass (K := K) hP pending [] hdone false
    rw [tokenRounds]
    by_cases hstop : pending = [] ∨ (fileAll W done).pool = []
    · rw [if_pos hstop]
      rw [fileAll_pool, List.map_eq_nil_iff] at hstop
      exact ⟨done, pending, rfl, .stop hstop⟩
    · rw [if_neg hstop]
      have hlt := tokenRound_lt P K (fileAll W done) [] pending
      rw [hround] at hlt ⊢
      cases progress with
      | false =>
        rw [hstill rfl] at hpass ⊢
        exact ⟨done, left, rfl, .last hpass⟩
      | true =>
        have hlen : left.length < n := by
          rw [← hn]
          simpa using hlt rfl
        obtain ⟨done'', left', heq, hrest⟩ := ih _ hlen done' left hdone' rfl
        exact ⟨done'', left', heq, .more hpass hrest⟩

/-! ## the least set -/

variable {user : Users.User} {addresses : List Addresses.Address} {keyPassword : String}

/-- the addresses of the keys that are tried are distinct -/
theorem allPending_emails (user : Users.User)
    (hdistinct : (addresses.map fun addr => toAsciiLowercase addr.email).Nodup) :
    ((allPending user addresses).filterMap fun p => p.dest.email?).Nodup := by
  have husers : (user.keys.map userPending).filterMap (fun p => p.dest.email?) = [] := by
    rw [List.filterMap_map, List.filterMap_eq_nil_iff]
    exact fun uk _ => rfl
  have haddresses : (addresses.filterMap fun addr =>
      (selectedKey addr).map (addressPending addr)).filterMap (fun p => p.dest.email?) =
      (addresses.filter fun addr => (selectedKey addr).isSome).map
        fun addr => toAsciiLowercase addr.email := by
    clear hdistinct
    induction addresses with
    | nil => rfl
    | cons addr rest ih =>
      cases hkey : selectedKey addr with
      | none => simpa [hkey] using ih
      | some ak =>
        simp only [List.filterMap_cons, List.filter_cons, hkey, Option.map_some, Option.isSome_some,
          if_true, List.map_cons, ← ih]
        rfl
  unfold allPending
  rw [List.filterMap_append, husers, List.nil_append, haddresses]
  exact hdistinct.sublist (List.Sublist.map _ List.filter_sublist)

theorem mem_allPending {p : Pending} :
    p ∈ allPending user addresses ↔ (∃ uk ∈ user.keys, userPending uk = p) ∨
      ∃ addr ∈ addresses, ∃ ak, selectedKey addr = some ak ∧ addressPending addr ak = p := by
  unfold allPending
  rw [List.mem_append, List.mem_map, List.mem_filterMap]
  simp only [Option.map_eq_some_iff]

theorem unlockable_mem {p : Pending} (h : p ∈ Unlockable W K user addresses keyPassword) :
    p ∈ allPending user addresses := (mem_least.mp h).1

/-- the keys of `U`, filed: those of the user, and each address key under its address -/
def FiledExactly (W : KeyFacts) (user : Users.User) (addresses : List Addresses.Address)
    (U : Set Pending) (userKeys : List PrivateKey) (addressKeys : KeyMap) : Prop :=
  (∀ key, key ∈ userKeys ↔
    ∃ uk ∈ user.keys, userPending uk ∈ U ∧ key = W.unlocked (userPending uk)) ∧
  ∀ email key, addressKeys.lookup email = some key ↔
    ∃ addr ∈ addresses, toAsciiLowercase addr.email = email ∧
      ∃ ak, selectedKey addr = some ak ∧ addressPending addr ak ∈ U ∧
        key = W.unlocked (addressPending addr ak)

theorem filedExactly (hnodup : (done.filterMap fun p => p.dest.email?).Nodup)
    (hdone : ∀ p, p ∈ done ↔ p ∈ Unlockable W K user addresses keyPassword) :
    FiledExactly W user addresses (Unlockable W K user addresses keyPassword)
      (fileAll W done).userKeys (fileAll W done).addressKeys := by
  constructor
  · intro key
    rw [fileAll_userKeys, List.mem_map]
    constructor
    · rintro ⟨p, hp, rfl⟩
      obtain ⟨hp, hdest⟩ := List.mem_filter.mp hp
      have hU := (hdone p).mp hp
      obtain ⟨uk, huk, rfl⟩ | ⟨addr, _, ak, _, rfl⟩ := mem_allPending.mp (unlockable_mem hU)
      · exact ⟨uk, huk, hU, rfl⟩
      · exact absurd (of_decide_eq_true hdest) nofun
    · rintro ⟨uk, huk, hU, rfl⟩
      exact ⟨userPending uk, List.mem_filter.mpr ⟨(hdone _).mpr hU, rfl⟩, rfl⟩
  · intro email key
    rw [fileAll_addressKeys done hnodup]
    constructor
    · rintro ⟨p, hp, hdest, rfl⟩
      have hU := (hdone p).mp hp
      obtain ⟨uk, _, rfl⟩ | ⟨addr, haddr, ak, hak, rfl⟩ := mem_allPending.mp (unlockable_mem hU)
      · cases hdest
      · exact ⟨addr, haddr, Dest.address.inj hdest, ak, hak, hU, rfl⟩
    · rintro ⟨addr, haddr, hemail, ak, hak, hU, rfl⟩
      exact ⟨addressPending addr ak, (hdone _).mpr hU, congrArg Dest.address hemail, rfl⟩

theorem fileAll_empty (hnodup : (done.filterMap fun p => p.dest.email?).Nodup) :
    ((fileAll W done).userKeys = [] ∧ (fileAll W done).addressKeys.keys = []) ↔ done = [] := by
  constructor
  · intro ⟨husers, haddresses⟩
    refine List.eq_nil_iff_forall_not_mem.mpr fun p hp => ?_
    cases hdest : p.dest with
    | user =>
      rw [fileAll_userKeys, List.map_eq_nil_iff, List.filter_eq_nil_iff] at husers
      exact husers p hp (decide_eq_true hdest)
    | address email =>
      have hlookup := (fileAll_addressKeys done hnodup email (W.unlocked p)).mpr ⟨p, hp, hdest, rfl⟩
      have hmem : email ∈ (fileAll W done).addressKeys.keys :=
        AList.mem_keys.mp (AList.lookup_isSome.mp (Option.isSome_of_mem hlookup))
      rw [haddresses] at hmem
      cases hmem
  · rintro rfl
    exact ⟨rfl, rfl⟩

open Classical in
/-- the code has opened the keys that can be opened, each as often as it is listed -/
theorem cascadeUnlock_filed (hP : IdealUnlock P W) (K : Crates) (user : Users.User)
    (keyPassword : String)
    (hdistinct : (addresses.map fun addr => toAsciiLowercase addr.email).Nodup) :
    ∃ done : List Pending,
      done.Perm ((allPending user addresses).filter (· ∈ Unlockable W K user addresses keyPassword)) ∧
      (done.filterMap fun p => p.dest.email?).Nodup ∧
      cascadeUnlock P K user addresses keyPassword =
        if done = [] then
          .error (.decryption "no keys could be unlocked (tried direct + token-based cascade)")
        else .ok ((fileAll W done).userKeys, (fileAll W done).addressKeys) := by
  obtain ⟨done, left, hdirect, hpass, hopen⟩ := directRound_pass hP keyPassword
    (allPending user addresses) [] (List.forall_mem_nil _)
  obtain ⟨done', left', hrounds, hpasses⟩ := tokenRounds_passes (K := K) hP done left hopen
  have hperm := Passes.perm_least hpass hpasses
  have hnodup : (done'.filterMap fun p => p.dest.email?).Nodup :=
    ((hperm.filterMap _).nodup_iff).mpr
      ((allPending_emails user hdistinct).sublist (List.filter_sublist.filterMap _))
  refine ⟨done', hperm, hnodup, ?_⟩
  unfold cascadeUnlock
  rw [show ({} : Filed) = fileAll W [] from rfl, hdirect]
  simp only [List.nil_append]
  rw [hrounds]
  exact ite_congr (propext (fileAll_empty hnodup)) (fun _ => rfl) fun _ => rfl

theorem allPending_perm {user' : Users.User} {addresses' : List Addresses.Address}
    (huser : user'.keys.Perm user.keys) (haddresses : addresses'.Perm addresses) :
    (allPending user' addresses').Perm (allPending user addresses) :=
  (huser.map _).append (haddresses.filterMap _)

/-- the same keys, filed in the same places -/
inductive SameKeys : Except Error (List PrivateKey × KeyMap) →
    Except Error (List PrivateKey × KeyMap) → Prop
  | ok {userKeys userKeys' addressKeys addressKeys'} (husers : userKeys.Perm userKeys')
      (haddresses : ∀ email, addressKeys.lookup email = addressKeys'.lookup email) :
      SameKeys (.ok (userKeys, addressKeys)) (.ok (userKeys', addressKeys'))
  | error (e) : SameKeys (.error e) (.error e)

/-- the keys that are returned are the least set that contains the ones the mailbox password opens
and, with a key, the ones whose token it decrypts; the order in which keys and addresses are listed
does not matter -/
theorem cascadeUnlock_least (hP : IdealUnlock P W) (K : Crates) (user : Users.User)
    (addresses : List Addresses.Address) (keyPassword : String)
    (hdistinct : (addresses.map fun addr => toAsciiLowercase addr.email).Nodup) :
    (match cascadeUnlock P K user addresses keyPassword with
      | .ok (userKeys, addressKeys) => (Unlockable W K user addresses keyPassword).Nonempty ∧
          FiledExactly W user addresses (Unlockable W K user addresses keyPassword) userKeys addressKeys
      | .error e => Unlockable W K user addresses keyPassword = ∅ ∧
          e = .decryption "no keys could be unlocked (tried direct + token-based cascade)") ∧
    ∀ (user' : Users.User) (addresses' : List Addresses.Address), user'.keys.Perm user.keys →
      addresses'.Perm addresses →
        SameKeys (cascadeUnlock P K user addresses keyPassword)
          (cascadeUnlock P K user' addresses' keyPassword) := by
  classical
  obtain ⟨done, hdone, hnodup, hresult⟩ := cascadeUnlock_filed hP K user keyPassword hdistinct
  have hmem : ∀ p, p ∈ done ↔ p ∈ Unlockable W K user addresses keyPassword := by
    intro p
    rw [hdone.mem_iff, List.mem_filter, decide_eq_true_iff]
    exact ⟨And.right, fun h => ⟨unlockable_mem h, h⟩⟩
  constructor
  · rw [hresult]
    by_cases hempty : done = []
    · rw [if_pos hempty]
      refine ⟨Set.eq_empty_iff_forall_notMem.mpr fun p hp => ?_, rfl⟩
      have hp' := (hmem p).mpr hp
      rw [hempty] at hp'
      cases hp'
    · rw [if_neg hempty]
      obtain ⟨p, hp⟩ := List.exists_mem_of_ne_nil done hempty
      exact ⟨⟨p, (hmem p).mp hp⟩, filedExactly hnodup hmem⟩
  · intro user' addresses' huser haddresses
    have hperm := allPending_perm huser haddresses
    have hsame : Unlockable W K user' addresses' keyPassword =
        Unlockable W K user addresses keyPassword := by
      unfold Unlockable
      rw [show {p | p ∈ allPending user' addresses'} = {p | p ∈ allPending user addresses} from
        Set.ext fun p => hperm.mem_iff]
    obtain ⟨done', hdone', hnodup', hresult'⟩ := cascadeUnlock_filed hP K user' keyPassword
      (((haddresses.map _).nodup_iff).mpr hdistinct)
    have hdone'' : done.Perm done' := by
      refine hdone.trans (List.Perm.trans ?_ hdone'.symm)
      rw [hsame]
      exact (hperm.filter _).symm
    rw [hresult, hresult']
    by_cases hempty : done = []
    · rw [hempty] at hdone''
      rw [if_pos hempty, if_pos hdone''.nil_eq.symm]
      exact .error _
    · rw [if_neg hempty, if_neg fun h => hempty (h ▸ hdone'').eq_nil]
      refine .ok ?_ fun email => Option.ext fun key => ?_
      · rw [fileAll_userKeys, fileAll_userKeys]
        exact (hdone''.filter _).map _
      · show _ = some key ↔ _ = some key
        rw [fileAll_addressKeys done hnodup, fileAll_addressKeys done' hnodup']
        exact exists_congr fun p => and_congr_left fun _ => hdone''.mem_iff

end

/-! ## a key that is opened with another -/

/-- the user key `"user"` opens with the mailbox password, the address key `"address"` with the text
`"secret"` of the message `"token"`, which is encrypted to the user key -/
def twoKeys : KeyFacts where
  own armored :=
    if armored = "user" then some "mailbox" else if armored = "address" then some "secret" else none
  fingerprintHex armored := armored
  recipient m armored := m = asBytes "token" ∧ armored = "user"
  plaintext m := asBytes "secret"

def twoKeysCrypto (P : OpenPgpCrypto) : OpenPgpCrypto :=
  { P with
    decryptKey := fun armored pass =>
      if twoKeys.own armored = some pass then
        .ok { armored, fingerprintHex := armored, passphrase := pass }
      else .error (.key "unlock")
    decryptSessionKey := fun m keys =>
      if m = asBytes "token" ∧ keys.any (fun k => k.armored = "user") then
        .ok { data := m, cipherAlgorithm := 9, aead := .none }
      else .error (.decrypt "no key could decrypt the session key")
    decryptAndVerify := fun m sk keys => .ok (asBytes "secret", .noSignature) }

theorem twoKeysCrypto_ideal (P : OpenPgpCrypto) : IdealUnlock (twoKeysCrypto P) twoKeys where
  opens := by
    intro armored pass key
    show (if twoKeys.own armored = some pass then _ else _) = _ ↔ _
    by_cases hown : twoKeys.own armored = some pass
    · rw [if_pos hown]
      exact ⟨fun h => ⟨hown, (Except.ok.inj h).symm⟩, fun h => congrArg _ h.2.symm⟩
    · rw [if_neg hown]
      exact ⟨(fun h => nomatch h), fun h => absurd h.1 hown⟩
  sessionKey := by
    intro m pool hpool
    show (∃ sk, (if m = asBytes "token" ∧ pool.any (fun k => k.armored = "user") then _ else _) = _) ↔
      ∃ k ∈ pool, m = asBytes "token" ∧ k.armored = "user"
    by_cases h : m = asBytes "token" ∧ pool.any (fun k => k.armored = "user")
    · rw [if_pos h]
      obtain ⟨k, hk, harmored⟩ := List.any_eq_true.mp h.2
      exact ⟨fun _ => ⟨k, hk, h.1, of_decide_eq_true harmored⟩, fun _ => ⟨_, rfl⟩⟩
    · rw [if_neg h]
      constructor
      · intro ⟨sk, hsk⟩
        cases hsk
      · intro ⟨k, hk, hm, harmored⟩
        exact absurd ⟨hm, List.any_eq_true.mpr ⟨k, hk, decide_eq_true harmored⟩⟩ h
  message := fun _ _ => ⟨.noSignature, rfl⟩

def twoKeysUser : Users.User where
  id := "user-1"
  keys := [{ id := "uk1", primary := 1, privateKey := "user", token := none }]

def twoKeysAddress : Addresses.Address where
  id := "addr-1"
  email := "Someone@Proton.me"
  order := 1
  keys := [{ id := "ak0", primary := 0, privateKey := "retired", token := none },
    { id := "ak1", primary := 1, privateKey := "address", token := some "dG9rZW4=" }]

theorem dearmorPgp_token (K : Crates) : dearmorPgp K "dG9rZW4=" = .ok (asBytes "token") := by
  have hplain : Strings.contains "-----BEGIN PGP".toList (Strings.trim "dG9rZW4=".toList) = false := by
    decide
  have hdecode : Base64.decode (String.ofList (Strings.trim "dG9rZW4=".toList)) =
      some (asBytes "token") := by decide +kernel
  unfold dearmorPgp
  simp only [hplain, hdecode]
  rfl

/-- the address key is opened with the passphrase its token carries, and filed under its address -/
theorem cascadeUnlock_least_two : ∃ userKeys addressKeys,
    cascadeUnlock (twoKeysCrypto transparentCrypto) (smallCrates []) twoKeysUser [twoKeysAddress]
      "mailbox" = .ok (userKeys, addressKeys) ∧
    addressKeys.lookup "someone@proton.me" =
      some { armored := "address", fingerprintHex := "address", passphrase := "secret" } := by
  have hleast := (cascadeUnlock_least (twoKeysCrypto_ideal transparentCrypto) (smallCrates [])
    twoKeysUser [twoKeysAddress] "mailbox" (List.nodup_singleton _)).1
  have huser : userPending { id := "uk1", primary := 1, privateKey := "user", token := none } ∈
      Unlockable twoKeys (smallCrates []) twoKeysUser [twoKeysAddress] "mailbox" :=
    mem_least.mpr ⟨List.mem_cons_self, .inl rfl⟩
  have haddress : addressPending twoKeysAddress
      { id := "ak1", primary := 1, privateKey := "address", token := some "dG9rZW4=" } ∈
      Unlockable twoKeys (smallCrates []) twoKeysUser [twoKeysAddress] "mailbox" :=
    mem_least.mpr ⟨List.mem_cons_of_mem _ List.mem_cons_self, .inr ⟨_, huser, "dG9rZW4=",
      asBytes "token", "secret", rfl, dearmorPgp_token _, ⟨rfl, rfl⟩, fromUtf8_asBytes "secret", rfl⟩⟩
  cases hresult : cascadeUnlock (twoKeysCrypto transparentCrypto) (smallCrates []) twoKeysUser
      [twoKeysAddress] "mailbox" with
  | error e =>
    rw [hresult] at hleast
    rw [hleast.1] at huser
    cases huser
  | ok keys =>
    rw [hresult] at hleast
    refine ⟨keys.1, keys.2, rfl, (hleast.2.2 _ _).mpr ⟨twoKeysAddress, List.mem_singleton_self _,
      ?_, _, rfl, haddress, rfl⟩⟩
    decide

end ProtonDrive
