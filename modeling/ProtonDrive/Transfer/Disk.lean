import ProtonDrive.App.Panes
import ProtonDrive.App.Transfer
import ProtonDrive.Client.Chain
import ProtonDrive.Download.Complete
import ProtonDrive.Lib.Files

/-!
# Downloads and the local disk

* `routeOf`, `fileRoute`  the route of a path, and that of the file that `File::create` opens under it;
* `Disk`, `diskAfter`     what is in the files of a disk, and what the calls of a task make of it;
* `Honest`                the file system opens no file where there can be none;
* `diskAfter_eq`          the disk holds what the trace shows, under the path it shows, and else what it held;
* `doDownload_creates`    a download opens no file but the one at its path;
* `homeDirs`              a file system of three directories.
-/

set_option linter.unusedVariables false

namespace ProtonDrive
open Encoding Effects Files

/-! ## paths -/

def routeOf (path : String) : Route := { rooted := hasRoot path, parts := pathParts path }

/-- what stands behind the last separator -/
def lastPart (path : String) : String :=
  String.ofList ((path.toList.splitOn '/').getLast?.getD [])

/-- the route of the directory, and the name in it.  A path that holds a NUL is refused, and so is one
that ends in a separator, in `.` or in `..` -/
def fileRoute (path : String) : Option (Route × String) :=
  if Char.ofNat 0 ∈ path.toList ∨ lastPart path ∈ ["", ".", ".."] then none
  else some ({ rooted := hasRoot path, parts := (pathParts path).dropLast }, lastPart path)

theorem fileRoute_name {path : String} {r : Route} {x : String} (h : fileRoute path = some (r, x)) :
    x ≠ ".." := by
  unfold fileRoute at h
  by_cases hrefused : Char.ofNat 0 ∈ path.toList ∨ lastPart path ∈ ["", ".", ".."]
  · rw [if_pos hrefused] at h
    cases h
  · rw [if_neg hrefused] at h
    cases h
    intro heq
    exact hrefused (.inr (by rw [heq]; decide))

/-- where `File::create` opens a file -/
def opens (V : Dirs) (path : String) : Option (V.Dir × String) :=
  (fileRoute path).bind fun f => V.place f.1 f.2

/-! ## the disk -/

abbrev Contents (V : Dirs) := V.Dir → String → Option Bytes

structure Disk (V : Dirs) where
  content : Contents V
  /-- the file that the writer of the download writes to -/
  writer : Option (V.Dir × String)

section
variable {V : Dirs}

open Classical in
noncomputable def Contents.set (files : Contents V) (at_ : V.Dir × String) (bs : Bytes) : Contents V :=
  fun d x => if (d, x) = at_ then some bs else files d x

namespace Disk

/-- a file that is opened is empty -/
noncomputable def create (disk : Disk V) : Option (V.Dir × String) → Disk V
  | some place => { content := disk.content.set place [], writer := some place }
  | none => disk

/-- what is written stands behind what the file holds -/
noncomputable def write (disk : Disk V) (bs : Bytes) : Disk V :=
  match disk.writer with
  | some (d, x) =>
    { disk with content := disk.content.set (d, x) ((disk.content d x).getD [] ++ bs) }
  | none => disk

noncomputable def after (disk : Disk V) : Event host → Disk V
  | ⟨.createFile path, .ok _⟩ => disk.create (opens V path)
  | ⟨.writeAll data, a⟩ => disk.write (takenBytes data a)
  | _ => disk

end Disk

noncomputable def diskAfter (files : Contents V) (tr : Trace host) : Disk V :=
  tr.foldl Disk.after { content := files, writer := none }

/-- a file is opened only where there can be one -/
def Honest (V : Dirs) (tr : Trace host) : Prop :=
  ∀ path, (⟨.createFile path, .ok ()⟩ : Event host) ∈ tr → (opens V path).isSome = true

/-- no file is opened but the one at `path` -/
def Creates (path : String) (c : HostCall) : Prop := ∀ p, c = .createFile p → p = path

theorem Contents.set_self (files : Contents V) (d : V.Dir) (x : String) (bs : Bytes) :
    files.set (d, x) bs d x = some bs := if_pos rfl

theorem Contents.set_other (files : Contents V) {place : V.Dir × String} (bs : Bytes) {d : V.Dir}
    {x : String} (h : (d, x) ≠ place) : files.set place bs d x = files d x := if_neg h

theorem Contents.set_set (files : Contents V) (place : V.Dir × String) (bs bs' : Bytes) :
    (files.set place bs).set place bs' = files.set place bs' := by
  funext d x
  unfold Contents.set
  split <;> rfl

/-- the disk with a file that was opened -/
noncomputable def diskWith (files : Contents V) : Option ((V.Dir × String) × Bytes) → Disk V
  | some (place, bs) => { content := files.set place bs, writer := some place }
  | none => { content := files, writer := none }

/-- where the file is that a trace shows -/
def placedFile (V : Dirs) (file : Option (String × Bytes)) : Option ((V.Dir × String) × Bytes) :=
  file.bind fun f => (opens V f.1).map fun place => (place, f.2)

/-- what is known of the file that a trace shows -/
def FileAt (V : Dirs) (path : String) (file : Option (String × Bytes)) : Prop :=
  ∀ p bs, file = some (p, bs) → p = path ∧ (opens V p).isSome = true

theorem placedFile_some {place : V.Dir × String} {path : String} (hplace : opens V path = some place)
    (bs : Bytes) : placedFile V (some (path, bs)) = some (place, bs) := by
  show (opens V path).map _ = _
  rw [hplace]
  rfl

/-- one call -/
theorem diskWith_after {files : Contents V} {file : Option (String × Bytes)} {path : String}
    {e : Event host} (hfile : FileAt V path file) (hcreates : Creates path e.call)
    (hhonest : Honest V [e]) :
    (diskWith files (placedFile V file)).after e = diskWith files (placedFile V (fileAfter file e)) ∧
      FileAt V path (fileAfter file e) := by
  obtain ⟨call, a⟩ := e
  cases call with
  | createFile p =>
    obtain rfl : p = path := hcreates p rfl
    cases a with
    | error msg => cases file <;> exact ⟨rfl, hfile⟩
    | ok u =>
      have hsome := hhonest p (List.mem_singleton_self _)
      obtain ⟨place, hplace⟩ := Option.isSome_iff_exists.mp hsome
      constructor
      · show (diskWith files (placedFile V file)).create (opens V p) =
          diskWith files (placedFile V (some (p, [])))
        rw [hplace, placedFile_some hplace]
        cases file with
        | none => rfl
        | some f =>
          -- the file is opened once more
          obtain ⟨p', bs⟩ := f
          obtain ⟨rfl, _⟩ := hfile p' bs rfl
          rw [placedFile_some hplace]
          exact congrArg (fun c => Disk.mk c (some place)) (files.set_set place bs [])
      · intro p' bs heq
        cases heq
        exact ⟨rfl, hsome⟩
  | writeAll data =>
    cases file with
    | none => exact ⟨rfl, nofun⟩
    | some f =>
      obtain ⟨p, bs⟩ := f
      obtain ⟨hp, hsome⟩ := hfile p bs rfl
      obtain ⟨⟨d, x⟩, hplace⟩ := Option.isSome_iff_exists.mp hsome
      constructor
      · show (diskWith files (placedFile V (some (p, bs)))).write (takenBytes data a) =
          diskWith files (placedFile V (some (p, bs ++ takenBytes data a)))
        rw [placedFile_some hplace, placedFile_some hplace]
        show Disk.mk ((files.set (d, x) bs).set (d, x) ((files.set (d, x) bs d x).getD [] ++ _)) _ = _
        rw [files.set_set, files.set_self]
        rfl
      · intro p' bs' heq
        cases heq
        exact ⟨hp, hsome⟩
  | _ => cases file <;> exact ⟨rfl, hfile⟩

/-- the disk holds what the trace shows, and beside it what it held -/
theorem diskAfter_eq (files : Contents V) {path : String} {tr : Trace host}
    (hcreates : ∀ e ∈ tr, Creates path e.call) (hhonest : Honest V tr) :
    diskAfter files tr = diskWith files (placedFile V (destination tr)) ∧
      FileAt V path (destination tr) := by
  induction tr using List.reverseRecOn with
  | nil => exact ⟨rfl, nofun⟩
  | append_singleton tr e ih =>
    obtain ⟨hdisk, hfile⟩ := ih (fun e' he' => hcreates e' (List.mem_append_left _ he'))
      fun p hp => hhonest p (List.mem_append_left _ hp)
    unfold diskAfter destination at *
    rw [List.foldl_concat, List.foldl_concat, hdisk]
    exact diskWith_after hfile (hcreates e List.mem_concat_self)
      fun p hp => hhonest p (List.mem_append_right _ hp)

end

/-! ## the calls of a download -/

section
variable {K : Crates} {client : ProtonDriveClient} {A : HostCall → Prop}

theorem only_mapErr {α : Type} {label : String} {p : Sdk α} (hp : Only A p.run) :
    Only A (mapErr label p).run := Only.bind hp fun r => trivial

theorem only_orFailed {α : Type} {label : String} {r : Except String α} :
    Only A (orFailed label r).run := by
  cases r <;> trivial

theorem only_unlessCancelled {msg : String} (hcheck : A (.isCancelled .transfer)) :
    Only A (unlessCancelled msg).run := by
  refine ⟨hcheck, fun cancelled => ?_⟩
  change Bool at cancelled
  cases cancelled <;> trivial

/-- a downloader comes of bare requests -/
theorem only_fileDownloader (hget : ∀ path, A (.requestJson (.bare .get path none)))
    (uid : NodeUid) : Only A (fileDownloader K client uid).run := by
  have hQ : ∀ e : Error, Fault.IsError (.error e) := fun _ => trivial
  have hchain : ∀ shareId linkId sharePriv,
      Only A (resolveNodeKeyViaChain K client shareId linkId sharePriv).run := by
    intro shareId linkId sharePriv
    refine Only.bindE (Only.mono (fun c hc => ?_) (within_collectChain MAX_CHAIN_DEPTH linkId).1)
      fun chain => (within_ofExcept hQ _ _).1
    obtain ⟨id, rfl⟩ := hc
    exact hget _
  refine Only.bindE (Only.bindE (within_getJson hQ (hget _)).1 fun _ => trivial) fun link => ?_
  refine Only.bindE (within_require hQ _ _).1 fun _ => ?_
  refine Only.bindE (within_ofExcept hQ _ _).1 fun fileProps => ?_
  refine Only.bindE (within_ofExcept hQ _ _).1 fun revision => ?_
  refine Only.bindE (Only.bindE (within_getJsonOr hQ (hget _)).1 fun _ => trivial) fun volumeId => ?_
  refine Only.bindE ?_ fun sharePriv => Only.bindE (hchain _ _ _) fun nodePriv => trivial
  refine Only.bindE (within_getJson hQ (hget _)).1 fun resp => ?_
  exact Only.bindE (within_ofExcept hQ _ _).1 fun key => (within_ofExcept hQ _ _).1

/-- each call of a download is one of these -/
theorem only_doDownload {task : DownloadTask} (hget : ∀ path, A (.requestJson (.bare .get path none)))
    (hblob : ∀ block, A (.requestBlob (blockGet block))) (hcheck : A (.isCancelled .transfer))
    (hcreate : A (.createFile task.destPath)) (hprogress : ∀ bytes, A (.sendProgress bytes))
    (hwrite : ∀ data, A (.writeAll data)) (hflush : A .flush) :
    Only A (doDownload K client task).run := by
  have hQ : ∀ e : Error, Fault.IsError (.error e) := fun _ => trivial
  refine Only.bindE (only_unlessCancelled hcheck) fun _ => ?_
  refine Only.bindE (only_mapErr (only_fileDownloader hget _)) fun dl => ?_
  refine Only.bindE ⟨hcreate, fun _ => trivial⟩ fun created => ?_
  refine Only.bindE only_orFailed fun _ => ?_
  refine Only.bindE ⟨hprogress 0, fun _ => trivial⟩ fun _ => ?_
  refine Only.bindE (only_unlessCancelled hcheck) fun _ => ?_
  refine Only.bindE (only_mapErr (within_downloadToWriter hQ hget hblob hwrite hflush).1) fun stats => ?_
  exact ⟨hprogress _, fun _ => trivial⟩

/-- a download opens no file but that at its path -/
theorem doDownload_creates {task : DownloadTask} :
    Only (Creates task.destPath) (doDownload K client task).run := by
  refine only_doDownload (fun _ => nofun) (fun _ => nofun) nofun ?_ (fun _ => nofun) (fun _ => nofun)
    nofun
  intro p hp
  cases hp
  rfl

end

/-! ## a small file system -/

/-- `/home/u`, and nothing else -/
def homeDirs : Dirs where
  Dir := Nat
  root := 0
  cwd := 2
  up d := d - 1
  enter d x := if d = 0 ∧ x = "home" then some 1 else if d = 1 ∧ x = "u" then some 2 else none
  up_root := rfl
  up_reaches d := by
    refine ⟨d, ?_⟩
    induction d with
    | zero => rfl
    | succ d ih => exact ih

end ProtonDrive
