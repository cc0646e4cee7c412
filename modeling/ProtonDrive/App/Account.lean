import ProtonDrive.Lib.Strings
import ProtonDrive.Lib.Tables
import ProtonDrive.Core.Actions
import Mathlib.Data.List.MinMax

/-!
# The account and its keys (`pdtui`, `account.rs`)

* `dearmorPgp`             the packets of an armored message;
* `decryptTokenAndUnlock`  a key is unlocked with the passphrase its token carries;
* `cascadeUnlock`          every key is tried with the mailbox password, then the tokens are tried with
                           the keys that are open, until a round opens none;
* `bootstrap`              the account: the address keys that are open, the public parts of all of
                           them and the ids of the addresses, each under the address in lower case.
-/

set_option linter.unusedVariables false

namespace ProtonDrive
open Encoding Api

/-! ## armor -/

/-- the lines of an armored text up to its end line; `body` is what was read of the base64 so far -/
def dearmorBody : (inBody seenBlank : Bool) → (body : List Char) → List (List Char) → List Char
  | _, _, body, [] => body
  | inBody, seenBlank, body, line :: rest =>
    let line := Strings.trimEnd line
    if "-----BEGIN PGP".toList.isPrefixOf line then dearmorBody true seenBlank body rest
    else if "-----END PGP".toList.isPrefixOf line then body
    else if !inBody then dearmorBody inBody seenBlank body rest
    -- headers stand before a blank line
    else if !seenBlank then dearmorBody inBody line.isEmpty body rest
    -- the checksum
    else if "=".toList.isPrefixOf line then dearmorBody inBody seenBlank body rest
    else dearmorBody inBody seenBlank (body ++ line) rest

def dearmorPgp (K : Crates) (armored : String) : Except Error Bytes :=
  let trimmed := Strings.trim armored.toList
  if !Strings.contains "-----BEGIN PGP".toList trimmed then
    match Base64.decode (String.ofList trimmed) with
    | some bytes => .ok bytes
    | none => .error (.internal ("token base64: " ++ K.base64Error (String.ofList trimmed)))
  else
    let body := String.ofList (dearmorBody false false [] (Strings.lines trimmed))
    match Base64.decode body with
    | some bytes => .ok bytes
    | none => .error (.internal ("token armor base64: " ++ K.base64Error body))

/-! ## one key -/

section
variable (P : OpenPgpCrypto) (K : Crates)

/-- `std::str::from_utf8` -/
def strFromUtf8 (bytes : Bytes) : Except String String :=
  match fromUtf8 bytes with
  | some s => .ok s
  | none => .error (K.utf8Error bytes)

theorem strFromUtf8_ok {bytes : Bytes} {s : String} :
    strFromUtf8 K bytes = .ok s ↔ fromUtf8 bytes = some s := by
  unfold strFromUtf8
  cases fromUtf8 bytes with
  | none => exact ⟨(fun h => nomatch h), (fun h => nomatch h)⟩
  | some t => exact ⟨fun h => congrArg some (Except.ok.inj h), fun h => congrArg _ (Option.some.inj h)⟩

def decryptTokenAndUnlock (tokenArmored keyArmored : String) (pool : List PrivateKey) :
    Except Error PrivateKey := do
  let tokenBytes ← dearmorPgp K tokenArmored
  let sessionKey ← (P.decryptSessionKey tokenBytes pool).mapError fun e =>
    .decryption ("token session key: " ++ e.display)
  let (passphraseBytes, _) ← (P.decryptAndVerify tokenBytes sessionKey []).mapError fun e =>
    .decryption ("token plaintext: " ++ e.display)
  let passphrase ← (strFromUtf8 K passphraseBytes).mapError fun e =>
    .internal ("token passphrase not utf-8: " ++ e)
  (P.decryptKey keyArmored passphrase).mapError fun e => .decryption ("unlock key: " ++ e.display)

end

/-! ## all keys -/

/-- where an unlocked key is filed -/
inductive Dest where
  | user
  | address (email : String)
  deriving DecidableEq

structure Pending where
  id : String
  armored : String
  token : Option String
  dest : Dest
  deriving DecidableEq

def toAsciiLowercase (s : String) : String := String.ofList (s.toList.map Char.toLower)

def userPending (uk : Users.UserKey) : Pending :=
  { id := uk.id, armored := uk.privateKey, token := uk.token, dest := .user }

def addressPending (addr : Addresses.Address) (ak : Addresses.AddressKey) : Pending :=
  { id := ak.id, armored := ak.privateKey, token := ak.token,
    dest := .address (toAsciiLowercase addr.email) }

/-- the key of an address that is tried: its first primary one, else its first -/
def selectedKey (addr : Addresses.Address) : Option Addresses.AddressKey :=
  (addr.keys.find? fun k => k.primary = 1).or addr.keys.head?

def allPending (user : Users.User) (addresses : List Addresses.Address) : List Pending :=
  user.keys.map userPending ++
    addresses.filterMap fun addr => (selectedKey addr).map (addressPending addr)

/-- `HashMap<String, PrivateKey>` -/
abbrev KeyMap := AList fun _ : String => PrivateKey

structure Filed where
  pool : List PrivateKey := []
  userKeys : List PrivateKey := []
  addressKeys : KeyMap := ∅

def Filed.file (filed : Filed) (dest : Dest) (key : PrivateKey) : Filed :=
  let filed := { filed with pool := filed.pool ++ [key] }
  match dest with
  | .user => { filed with userKeys := filed.userKeys ++ [key] }
  | .address email => { filed with addressKeys := filed.addressKeys.insert email key }

/-- what a round leaves -/
structure Round where
  filed : Filed
  pending : List Pending
  progress : Bool

section
variable (P : OpenPgpCrypto) (K : Crates)

/-- round 1: each key with the mailbox password -/
def directRound (keyPassword : String) (filed : Filed) (stillPending : List Pending) :
    List Pending → Filed × List Pending
  | [] => (filed, stillPending)
  | p :: rest =>
    match P.decryptKey p.armored keyPassword with
    | .ok key => directRound keyPassword (filed.file p.dest key) stillPending rest
    | .error _ => directRound keyPassword filed (stillPending ++ [p]) rest

/-- a later round: each key that is left, with its token -/
def tokenRound (filed : Filed) (nextPending : List Pending) (progress : Bool) : List Pending → Round
  | [] => { filed, pending := nextPending, progress }
  | p :: rest =>
    match p.token with
    | none => tokenRound filed (nextPending ++ [p]) progress rest
    | some token =>
      match decryptTokenAndUnlock P K token p.armored filed.pool with
      | .ok key => tokenRound (filed.file p.dest key) nextPending true rest
      | .error _ => tokenRound filed (nextPending ++ [p]) progress rest

/-- a key is opened with its token and filed, or left for the next round -/
theorem tokenRound_cons (filed : Filed) (next : List Pending) (progress : Bool) (p : Pending)
    (rest : List Pending) :
    (∃ token key, p.token = some token ∧
      decryptTokenAndUnlock P K token p.armored filed.pool = .ok key ∧
      tokenRound P K filed next progress (p :: rest) =
        tokenRound P K (filed.file p.dest key) next true rest) ∨
    ((∀ token key, p.token = some token →
        decryptTokenAndUnlock P K token p.armored filed.pool ≠ .ok key) ∧
      tokenRound P K filed next progress (p :: rest) =
        tokenRound P K filed (next ++ [p]) progress rest) := by
  rw [tokenRound]
  cases htoken : p.token with
  | none => exact .inr ⟨(fun _ _ h => nomatch h), rfl⟩
  | some token =>
    cases hkey : decryptTokenAndUnlock P K token p.armored filed.pool with
    | error e =>
      refine .inr ⟨fun token' key h hok => ?_, by simp only [hkey]⟩
      cases h
      rw [hkey] at hok
      cases hok
    | ok key => exact .inl ⟨token, key, rfl, hkey, by simp only [hkey]⟩

theorem tokenRound_le (filed : Filed) (next : List Pending) (progress : Bool) (ps : List Pending) :
    (tokenRound P K filed next progress ps).pending.length ≤ next.length + ps.length := by
  induction ps generalizing filed next progress with
  | nil => exact Nat.le_refl _
  | cons p rest ih =>
    rw [List.length_cons]
    obtain ⟨token, key, _, _, heq⟩ | ⟨_, heq⟩ := tokenRound_cons P K filed next progress p rest
    · have hopened := ih (filed.file p.dest key) next true
      rw [heq]
      omega
    · have hkept := ih filed (next ++ [p]) progress
      rw [List.length_append, List.length_singleton] at hkept
      rw [heq]
      omega

/-- a round with progress leaves fewer keys -/
theorem tokenRound_lt (filed : Filed) (next ps : List Pending)
    (h : (tokenRound P K filed next false ps).progress = true) :
    (tokenRound P K filed next false ps).pending.length < next.length + ps.length := by
  induction ps generalizing next with
  | nil => cases h
  | cons p rest ih =>
    rw [List.length_cons]
    obtain ⟨token, key, _, _, heq⟩ | ⟨_, heq⟩ := tokenRound_cons P K filed next false p rest
    · have hopened := tokenRound_le P K (filed.file p.dest key) next true rest
      rw [heq]
      omega
    · rw [heq] at h ⊢
      have hkept := ih (next ++ [p]) h
      rw [List.length_append, List.length_singleton] at hkept
      omega

/-- the rounds with tokens, while there are keys that are left and keys that are open -/
def tokenRounds (filed : Filed) (pending : List Pending) : Filed × List Pending :=
  if pending = [] ∨ filed.pool = [] then (filed, pending)
  else
    let round := tokenRound P K filed [] false pending
    if h : round.progress = true then tokenRounds round.filed round.pending
    else (round.filed, round.pending)
termination_by pending.length
decreasing_by
  have hlt := tokenRound_lt P K filed [] pending h
  rw [List.length_nil, Nat.zero_add] at hlt
  exact hlt

def cascadeUnlock (user : Users.User) (addresses : List Addresses.Address) (keyPassword : String) :
    Except Error (List PrivateKey × KeyMap) :=
  let (filed, pending) := directRound P keyPassword {} [] (allPending user addresses)
  let (filed, pending) := tokenRounds P K filed pending
  if filed.userKeys = [] ∧ filed.addressKeys.keys = [] then
    .error (.decryption "no keys could be unlocked (tried direct + token-based cascade)")
  else .ok (filed.userKeys, filed.addressKeys)

end

/-! ## the account -/

/-- the operations of the trait that only the account uses -/
structure AccountCrypto extends OpenPgpCrypto where
  publicKeyFromArmored : (armored : String) → Except CryptoError PublicKey

structure PdtuiAccount where
  userId : String
  keyPassword : String
  primaryEmail : String
  addressKeys : KeyMap
  /-- the public parts of all keys of an address, the retired ones too -/
  addressPubKeys : AList fun _ : String => List PublicKey
  addressIds : AList fun _ : String => String

/-- `api_get` of `account.rs` -/
def accountGet (K : Crates) {α : Type} (type : String) (dec : Json → Option α) (path : String) :
    Sdk α :=
  getJsonOr (fun code error => .internal ("API error " ++ toString code ++ " on " ++ path ++ ": " ++
    error.getD "")) K ("JSON parse " ++ path) type dec path

def lowerEmail (addr : Addresses.Address) : String := toAsciiLowercase addr.email

/-- an address of least order among those with an open key, the first of them; if no address has an
open key the first address -/
def primaryAddress (addressKeys : KeyMap) (addresses : List Addresses.Address) :
    Option Addresses.Address :=
  ((addresses.filter fun a => (addressKeys.lookup (lowerEmail a)).isSome).argmin (·.order)).or
    addresses.head?

/-- the public parts of the keys of an address, less those that cannot be read -/
def addressPubs (P : AccountCrypto) (addr : Addresses.Address) : List PublicKey :=
  addr.keys.filterMap fun key => (P.publicKeyFromArmored key.privateKey).toOption

section
variable (P : AccountCrypto) (K : Crates)

def accountOf (userId keyPassword : String) (addressKeys : KeyMap)
    (addresses : List Addresses.Address) : Except Error PdtuiAccount :=
  if addressKeys.keys = [] then .error (.decryption "no address key could be unlocked")
  else
    match primaryAddress addressKeys addresses with
    | none => .error (.internal "no addresses returned for user")
    | some primary =>
      .ok { userId, keyPassword, primaryEmail := primary.email, addressKeys,
            addressPubKeys := Tables.fill (addresses.map fun a => (lowerEmail a, addressPubs P a)),
            addressIds := Tables.fill (addresses.map fun a => (lowerEmail a, a.id)) }

def bootstrap (userId keyPassword : String) : Sdk PdtuiAccount := do
  let userResp ← accountGet K "GetUserResponse" Users.GetUserResponse.ofJson "/core/v4/users"
  let addrResp ← accountGet K "GetAddressesResponse" Addresses.GetAddressesResponse.ofJson
    "/core/v4/addresses"
  let keys ← ofExcept id
    (cascadeUnlock P.toOpenPgpCrypto K userResp.user addrResp.addresses keyPassword)
  ofExcept id (accountOf P userId keyPassword keys.2 addrResp.addresses)

end

namespace PdtuiAccount

variable (account : PdtuiAccount)

/-- a value of a table, or the error that there is none -/
def found {β : Type} (table : AList fun _ : String => β) (what email : String) : Except Error β :=
  ((table.lookup (toAsciiLowercase email)).elim
    (.error (.internal (what ++ " for " ++ email))) .ok)

def addressPrivateKey (email : String) : Except Error PrivateKey :=
  found account.addressKeys "no unlocked address private key" email

def addressPublicKeys (email : String) : Except Error (List PublicKey) :=
  found account.addressPubKeys "no public keys" email

def addressId (email : String) : Except Error String :=
  found account.addressIds "no address id" email

/-- the account as the core sees it -/
def toAccount : ProtonDriveAccount where
  primaryEmail := account.primaryEmail
  addressPrivateKey := account.addressPrivateKey
  addressPublicKeys := account.addressPublicKeys
  addressId := account.addressId

end PdtuiAccount

end ProtonDrive
