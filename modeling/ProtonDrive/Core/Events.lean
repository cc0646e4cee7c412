import ProtonDrive.Core.Client

/-!
# The event feed of a volume (`events.rs`)

* `mapVolumeEvent`         the event of the client for an event of the server;
* `fetchVolumeEvents`, `fetchLatestEventId`
                           the two requests; `checkCode` looks at the envelope before it is read;
* `drainVolumeEvents`      one tick: the pages of the feed from a cursor on, each dispatched as it comes;
* `resolveStartCursor`     the cursor to begin with;
* `spawnVolumeEventLoop`   the task behind a subscription.

The handle of a subscription is seen only through its token: `isCancelled`, and the answer of
`sleepOrCancelled`, which is true where the `select!` took the branch of the token.
-/

set_option linter.unusedVariables false

namespace ProtonDrive
open Encoding Effects Api

def POLL_INTERVAL_SECS : Nat := 30

def BACKOFF_FIB : List Nat := [1, 1, 2, 3, 5, 8, 13]

/-- `POLL_INTERVAL_SECS * BACKOFF_FIB[retry.min(BACKOFF_FIB.len() - 1)]` -/
def backoffWait (retry : Nat) : Nat :=
  POLL_INTERVAL_SECS * BACKOFF_FIB.get ⟨min retry (BACKOFF_FIB.length - 1),
    Nat.lt_of_le_of_lt (Nat.min_le_right _ _) (by decide)⟩

/-- `retry.saturating_add(1)` -/
def saturatingSucc (retry : Nat) : Nat := min (retry + 1) (2 ^ 64 - 1)

def mapVolumeEvent (volumeId : String) (entry : Events.VolumeEventEntry) : DriveEvent :=
  let uid : NodeUid := { volumeId, nodeId := entry.link.linkId }
  let kind : NodeEventKind :=
    match entry.eventType with
    | 0 => .deleted
    | 1 => .created
    | _ => if entry.link.isTrashed then .trashed else .updated
  .node uid kind

/-- the node a refresh or a removal names: the volume twice -/
def volumeRoot (volumeId : String) : NodeUid := { volumeId, nodeId := volumeId }

structure DrainResult where
  cursor : String
  refreshed : Bool
  deriving DecidableEq

/-! ## the requests -/

/-- the part of an envelope that `check_code` reads -/
structure CodeOnly where
  code : Nat
  error : Option String

def CodeOnly.ofJson : Json → Option CodeOnly :=
  Json.record ["Code", "Error"] 0 fun j => do
    let code ← j.defaulted Json.asU32 0 "Code"
    let error ← j.optional Json.asStr "Error"
    return { code, error }

/-- a head with a code is read alike where the code may be missing -/
theorem CodeOnly.ofJson_of_probe {j : Json} {probe : EnvelopeProbe}
    (h : EnvelopeProbe.ofMembers j = some probe) :
    CodeOnly.ofJson j = some ⟨probe.code, probe.error⟩ := by
  simp only [EnvelopeProbe.ofMembers, Option.bind_eq_bind, Option.bind_eq_some_iff,
    Option.pure_def, Option.some.injEq] at h
  obtain ⟨code, hcode, error, herror, rfl⟩ := h
  rw [CodeOnly.ofJson, Json.record_of_required hcode]
  simp [Json.defaulted_of_required hcode, herror]

def latestPath (volumeId : String) : String := "/drive/volumes/" ++ volumeId ++ "/events/latest"

def eventsPath (volumeId eventId : String) : String :=
  "/drive/v2/volumes/" ++ volumeId ++ "/events/" ++ eventId

def latestGet (volumeId : String) : JsonRequest := .bare .get (latestPath volumeId) none

def eventsGet (volumeId eventId : String) : JsonRequest := .bare .get (eventsPath volumeId eventId) none

section
variable (K : Crates)

def checkCode (body : Bytes) : Sdk Unit := do
  let head ← ofExcept (fun e => .internal ("envelope JSON: " ++ e))
    (K.fromSlice "CodeOnly" CodeOnly.ofJson body)
  let msg := head.error.getD ("API error " ++ toString head.code)
  require (head.code = CODE_OK) (if head.code = 2501 then .notFound msg else .internal msg)

/-- a request whose answer is checked for its code and then read -/
def getChecked {α : Type} (what type : String) (dec : Json → Option α) (req : JsonRequest) :
    Sdk α := do
  let resp ← requestJson req
  checkCode K resp.body
  let env ← ofExcept (fun e => .internal (what ++ ": " ++ e))
    (K.fromSlice ("ResponseEnvelope<" ++ type ++ ">") (ResponseEnvelope.ofJson dec) resp.body)
  return env.inner

def fetchLatestEventId (volumeId : String) : Sdk String := do
  let resp ← getChecked K "latest-event JSON" "GetLatestEventIdResponse"
    Events.GetLatestEventIdResponse.ofJson (latestGet volumeId)
  return resp.eventId

def fetchVolumeEvents (volumeId eventId : String) : Sdk Events.GetVolumeEventsResponse :=
  getChecked K "events JSON" "GetVolumeEventsResponse" Events.GetVolumeEventsResponse.ofJson
    (eventsGet volumeId eventId)

/-! ## one tick -/

def dispatchEvents (volumeId : String) : List Events.VolumeEventEntry → Sdk Unit
  | [] => pure ()
  | entry :: rest => do
    call (.onEvent (mapVolumeEvent volumeId entry))
    dispatchEvents volumeId rest

/-- what the drain does with a page; `next` drains on from a cursor -/
def drainPage (volumeId requestCursor : String) (resp : Events.GetVolumeEventsResponse)
    (next : String → Sdk DrainResult) : Sdk DrainResult :=
  if resp.refresh then do
    call (.onEvent (.treeRefresh (volumeRoot volumeId)))
    return { cursor := resp.eventId, refreshed := true }
  else if resp.events.isEmpty then
    if resp.eventId ≠ requestCursor then do
      call (.onEvent (.fastForward resp.eventId))
      return { cursor := resp.eventId, refreshed := false }
    else return { cursor := resp.eventId, refreshed := false }
  else do
    dispatchEvents volumeId resp.events
    if !resp.more then return { cursor := resp.eventId, refreshed := false }
    -- the server says that there is more, and has not moved on
    else if resp.eventId = requestCursor then
      return { cursor := resp.eventId, refreshed := false }
    else next resp.eventId

/-- `fuel` bounds the number of pages of the unrolling, the source has no such bound -/
def drainVolumeEvents (volumeId : String) : (fuel : Nat) → (cursor : String) → Sdk DrainResult
  | 0, _ => (Prog.cut : Prog host (Except Fault DrainResult))
  | fuel + 1, cursor => do
    let resp ← fetchVolumeEvents K volumeId cursor
    drainPage volumeId cursor resp (drainVolumeEvents volumeId fuel)

/-! ## the task -/

def resolveStartCursor (volumeId : String) : Sdk String := do
  let got ← call .providerGet
  let stored ← ofExcept id got
  match stored with
  | some cursor => return cursor
  | none => do
    let latest ← fetchLatestEventId K volumeId
    let set ← call (.providerSet latest)
    ofExcept id set
    return latest

end

/-- a fallible part of the task: an error is a value, a panic ends the task -/
def attempt {α : Type} (p : Sdk α) : Sdk (Except Error α) :=
  ((p.run >>= fun r =>
    match r with
    | .ok a => pure (.ok (.ok a))
    | .error (.error e) => pure (.ok (.error e))
    | .error (.panicked msg) => pure (.error (.panicked msg))) : Prog host (Except Fault _))

/-- the `select!` and the check after it; `false` where the task is over -/
def pollDue (retry : Nat) : Sdk Bool := do
  let woken : Bool ← call (.sleepOrCancelled (backoffWait retry))
  if woken then return false
  else do
    let cancelled : Bool ← call (.isCancelled .subscription)
    return !cancelled

section
variable (K : Crates) (volumeId : String)

/-- the loop; `fuel` bounds the turns, and in each turn the pages, of the unrolling -/
def eventLoop : (fuel : Nat) → (cursor : String) → (retry : Nat) → Sdk Unit
  | 0, _, _ => (Prog.cut : Prog host (Except Fault Unit))
  | fuel + 1, cursor, retry => do
    let due ← pollDue retry
    if due then do
      let drained ← attempt (drainVolumeEvents K volumeId fuel cursor)
      match drained with
      | .ok outcome => do
        -- a cursor that cannot be persisted is only logged
        let _ ← call (.providerSet outcome.cursor)
        eventLoop fuel outcome.cursor 0
      | .error (.notFound _) => call (.onEvent (.treeRemoval (volumeRoot volumeId)))
      | .error _ => eventLoop fuel cursor (saturatingSucc retry)
    else return ()

def spawnVolumeEventLoop (fuel : Nat) : Sdk Unit := do
  let start ← attempt (resolveStartCursor K volumeId)
  match start with
  | .ok cursor => eventLoop K volumeId fuel cursor 0
  -- the task logs the error and is over
  | .error _ => return ()

end

end ProtonDrive
