import ProtonDrive.Lib.Prog
import ProtonDrive.Lib.Json
import ProtonDrive.Core.Crypto

/-!
# What the host supplies to the core

* `Error`             the error type of `proton-drive-core`;
* `JsonRequest`, `BlobRequest`, `JsonResponse`
                      the HTTP interface.  The body of a JSON request is kept as the document whose
                      bytes `serde_json::to_vec` sends;
* `HostCall`          every call the modelled code makes to its host, with the answers it can get;
* `Sdk`               the programs of the core: calls to the host, ended by a value, by an `Error`
                      or by a panic (`Fault`);
* `ProtonDriveAccount`, `Crates`
                      the account the host supplies, and the library functions behind the code.
-/

set_option linter.unusedVariables false

namespace ProtonDrive
open Encoding Effects

/-! ## errors -/

inductive Error where
  | network (msg : String)
  | rateLimited (retryAfterSecs : Nat)
  | validation (msg : String)
  | integrity (msg : String)
  | decryption (msg : String)
  | verification (msg : String)
  | nodeWithSameNameExists (name : String)
  | revisionDraftConflict
  | notFound (msg : String)
  | integrityCheckFailed (msg : String)
  | protocolViolation (msg : String)
  | notImplemented (what : String)
  | crypto (e : CryptoError)
  | cache (msg : String)
  | internal (msg : String)
  deriving DecidableEq

def Error.display : Error → String
  | .network msg => "network error: " ++ msg
  | .rateLimited secs => "rate limited; retry after " ++ toString secs ++ "s"
  | .validation msg => "validation error: " ++ msg
  | .integrity msg => "integrity error: " ++ msg
  | .decryption msg => "decryption error: " ++ msg
  | .verification msg => "verification error: " ++ msg
  | .nodeWithSameNameExists name => "node with same name already exists: " ++ name
  | .revisionDraftConflict => "revision draft conflict"
  | .notFound msg => "node not found: " ++ msg
  | .integrityCheckFailed msg => "integrity check failed: " ++ msg
  | .protocolViolation msg => "protocol violation: " ++ msg
  | .notImplemented what => "not implemented in this build: " ++ what
  | .crypto e => "crypto: " ++ e.display
  | .cache msg => "cache: " ++ msg
  | .internal msg => "internal: " ++ msg

/-- how a function of the core ends when it returns no value -/
inductive Fault where
  | error (e : Error)
  | panicked (msg : String)
  deriving DecidableEq

/-- `Err` was returned -/
def Fault.IsError : Fault → Prop
  | .error _ => True
  | .panicked _ => False

/-! ## HTTP -/

inductive HttpMethod where
  | get
  | post
  | put
  | delete
  | patch
  deriving DecidableEq

structure JsonRequest where
  method : HttpMethod
  path : String
  query : List (String × String)
  headers : List (String × String)
  body : Option Json

structure JsonResponse where
  status : Nat
  headers : List (String × String)
  body : Bytes
  deriving DecidableEq

structure BlobRequest where
  method : HttpMethod
  path : String
  query : List (String × String)
  headers : List (String × String)
  body : Bytes
  deriving DecidableEq

/-- a request with nothing but a method and a path -/
def JsonRequest.bare (method : HttpMethod) (path : String) (body : Option Json) : JsonRequest :=
  { method, path, query := [], headers := [], body }

/-! ## nodes and events -/

structure NodeUid where
  volumeId : String
  nodeId : String
  deriving DecidableEq

inductive NodeEventKind where
  | created
  | updated
  | trashed
  | restored
  | deleted
  | renamed
  deriving DecidableEq

inductive DriveEvent where
  | node (uid : NodeUid) (kind : NodeEventKind)
  | treeRefresh (root : NodeUid)
  | treeRemoval (root : NodeUid)
  | fastForward (newEventId : String)
  | sharedWithMeUpdated
  deriving DecidableEq

/-! ## the calls -/

/-- the cancellation tokens the code looks at: the one `upload_from_stream` makes for itself, the
one of a transfer, and the one of an event subscription -/
inductive CancelToken where
  | upload
  | transfer
  | subscription
  deriving DecidableEq

/-- `write_all` failed after the writer had taken `accepted` bytes -/
structure WriteError where
  msg : String
  accepted : Nat

inductive HostCall where
  | requestJson (req : JsonRequest)
  | requestBlob (req : BlobRequest)
  | coins
  | read (cap : Nat)
  | isCancelled (token : CancelToken)
  | sendProgress (bytes : Nat)
  | createFile (path : String)
  | writeAll (data : Bytes)
  | flush
  | onEvent (ev : DriveEvent)
  | providerGet
  | providerSet (eventId : String)
  | sleepOrCancelled (secs : Nat)

/-- the answer of `AsyncRead::read`: at most as many bytes as there is room for, none at the end -/
abbrev ReadAnswer (cap : Nat) := Except String {bs : Bytes // bs.length ≤ cap}

def HostCall.Ans : HostCall → Type
  | .requestJson _ => Except Error JsonResponse
  | .requestBlob _ => Except Error JsonResponse
  | .coins => Coins
  | .read cap => ReadAnswer cap
  | .isCancelled _ => Bool
  | .sendProgress _ => Unit
  | .createFile _ => Except String Unit
  | .writeAll _ => Except WriteError Unit
  | .flush => Except String Unit
  | .onEvent _ => Unit
  | .providerGet => Except Error (Option String)
  | .providerSet _ => Except Error Unit
  | .sleepOrCancelled _ => Bool

abbrev host : Sig := { Call := HostCall, Ans := HostCall.Ans }

abbrev Sdk (α : Type) := ExceptT Fault (Prog host) α

/-! ## account and libraries -/

structure ProtonDriveAccount where
  primaryEmail : String
  addressPrivateKey : String → Except Error PrivateKey
  addressPublicKeys : String → Except Error (List PublicKey)
  addressId : String → Except Error String

abbrev Digest (n : Nat) := {bs : Bytes // bs.length = n}

/-- the functions of third-party crates the code calls -/
structure Crates where
  /-- the document a byte string is the text of -/
  jsonParse : Bytes → Option Json
  /-- what `serde` says when the bytes are not a record of the named type -/
  jsonError : (type : String) → Bytes → String
  /-- what `base64` says of a text it cannot decode -/
  base64Error : String → String
  /-- what `std::str::from_utf8` says of bytes that are not UTF-8 -/
  utf8Error : Bytes → String
  sha256 : Bytes → Digest 32
  sha1 : Bytes → Digest 20
  hmacSha256 : (key msg : Bytes) → Except String (Digest 32)

/-- `serde_json::from_slice::<T>`, where `dec` reads `T` and `type` is its name -/
def Crates.fromSlice (K : Crates) {α : Type} (type : String) (dec : Json → Option α) (bs : Bytes) :
    Except String α :=
  match (K.jsonParse bs).bind dec with
  | some a => .ok a
  | none => .error (K.jsonError type bs)

end ProtonDrive
