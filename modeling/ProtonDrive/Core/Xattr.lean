import ProtonDrive.Core.Actions

/-!
# The extended attributes of a revision (`upload.rs`)

`buildXattrJson` is the document the uploader encrypts with the revision; `systemTimeToIso8601` is
the modification time in it.  A `SystemTime` is the number of nanoseconds since the Unix epoch.
-/

set_option linter.unusedVariables false

namespace ProtonDrive
open Encoding

abbrev SystemTime := Int

/-- `{n:0w}` -/
def padded (w : Nat) (n : Int) : String :=
  let digits := toString n
  "".pushn '0' (w - digits.length) ++ digits

/-- the time as `Date.prototype.toISOString()` writes it, `none` before the epoch -/
def systemTimeToIso8601 (t : SystemTime) : Option String :=
  if t < 0 then none else
  let secs := t / 1000000000
  let millis := t % 1000000000 / 1000000
  let days := secs / 86400
  let secsOfDay := secs % 86400
  let hour := secsOfDay.tdiv 3600
  let minute := (secsOfDay.tmod 3600).tdiv 60
  let second := secsOfDay.tmod 60
  -- days since the epoch to year, month and day
  let z := days + 719468
  let era := (if z ≥ 0 then z else z - 146096).tdiv 146097
  let doe := z - era * 146097
  let yoe := (doe - doe.tdiv 1460 + doe.tdiv 36524 - doe.tdiv 146096).tdiv 365
  let yearCivil := yoe + era * 400
  let doy := doe - (365 * yoe + yoe.tdiv 4 - yoe.tdiv 100)
  let mp := (5 * doy + 2).tdiv 153
  let day := doy - (153 * mp + 2).tdiv 5 + 1
  let month := if mp < 10 then mp + 3 else mp - 9
  let year := if month ≤ 2 then yearCivil + 1 else yearCivil
  some (padded 4 year ++ "-" ++ padded 2 month ++ "-" ++ padded 2 day ++ "T" ++ padded 2 hour ++
    ":" ++ padded 2 minute ++ ":" ++ padded 2 second ++ "." ++ padded 3 millis ++ "Z")

/-- the extended attributes; the object `Common` is written with its keys in order, as
`serde_json::Map` keeps them -/
def xattrDocument (sizeBytes : Nat) (blockSizes : List Nat) (sha1Hex : String)
    (modificationTime : Option SystemTime) : Json :=
  let time : List (String × Json) :=
    match modificationTime.bind systemTimeToIso8601 with
    | some iso => [("ModificationTime", .str iso)]
    | none => []
  .obj [("Common", .obj (
    [("BlockSizes", .arr (blockSizes.map fun n => .num n)),
     ("Digests", .obj [("SHA1", .str sha1Hex)])] ++ time ++ [("Size", .num sizeBytes)]))]

def buildXattrJson (sizeBytes : Nat) (blockSizes : List Nat) (sha1Hex : String)
    (modificationTime : Option SystemTime) : String :=
  (xattrDocument sizeBytes blockSizes sha1Hex modificationTime).render

end ProtonDrive
