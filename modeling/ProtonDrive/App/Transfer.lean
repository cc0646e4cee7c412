import Mathlib.Data.List.Induction
import ProtonDrive.App.Account
import ProtonDrive.Core.Client
import ProtonDrive.Core.Traces

/-!
# Transfers (`pdtui`, `transfer.rs`)

* `Task`, `doDownload`, `doUpload`
                          the bodies of the tasks behind a download and an upload.  Their errors are texts,
                          and a panic ends a task without an outcome;
* `Transfer`              what the user interface knows of the task: the last values of the two
                          channels, the cancellation token and the state that `poll` makes of them;
* `Reached task tr t`     `t` can be reached when the task, `poll` and `cancel` take turns and the task
                          has made the calls `tr`;
* `Reached.completed`     a transfer is `Completed` only if its task has returned `Ok`;
* `FinishedDownload`      the parts of such a task (`doDownload_ok`), and the file it leaves
                          (`FinishedDownload.destination`).
-/

set_option linter.unusedVariables false

namespace ProtonDrive
open Encoding Effects Api

/-! ## tasks -/

/-- how a task ends that does not return `Ok` -/
inductive TaskFault where
  | failed (msg : String)
  | panicked (msg : String)

abbrev Task (α : Type) := ExceptT TaskFault (Prog host) α

def TaskFault.of (label : String) : Fault → TaskFault
  | .error e => .failed (label ++ e.display)
  | .panicked msg => .panicked msg

/-- `.map_err(|e| format!("{label}{e}"))?` -/
def mapErr {α : Type} (label : String) (p : Sdk α) : Task α := ExceptT.adapt (TaskFault.of label) p

def perform (c : HostCall) : Task c.Ans := ExceptT.lift (Prog.perform (S := host) c)

def orFailed {α : Type} (label : String) : Except String α → Task α
  | .ok a => pure a
  | .error e => throw (.failed (label ++ e))

/-- `if token.is_cancelled() { return Err(msg) }` -/
def unlessCancelled (msg : String) : Task Unit := do
  let cancelled : Bool ← perform (.isCancelled .transfer)
  if cancelled then throw (.failed msg) else pure ()

structure DownloadTask where
  nodeUid : NodeUid
  nodeName : String
  destDir : String

/-- `dest_dir.join(&node_name)`: a name that is an absolute path replaces the directory -/
def DownloadTask.destPath (task : DownloadTask) : String :=
  if (asBytes task.nodeName).head? = some 47 then task.nodeName
  else if (asBytes task.destDir).getLast?.all (· = 47) then task.destDir ++ task.nodeName
  else task.destDir ++ "/" ++ task.nodeName

section
variable (K : Crates) (client : ProtonDriveClient) (task : DownloadTask)

def doDownload : Task Unit := do
  unlessCancelled "download cancelled before start"
  let downloader ← mapErr "file_downloader: " (fileDownloader K client task.nodeUid)
  let created ← perform (.createFile task.destPath)
  orFailed ("create " ++ task.destPath ++ ": ") created
  perform (.sendProgress 0)
  unlessCancelled "download cancelled"
  let stats ← mapErr "download_to_writer: " (downloadToWriter K downloader)
  perform (.sendProgress stats.bytes)

end

/-! ### uploads -/

/-- `Path::file_name`: the last component, if it is a name -/
def fileNameOf (path : String) : Option String :=
  let components := (path.splitOn "/").filter fun c => c ≠ "" ∧ c ≠ "."
  match components.getLast? with
  | none => none
  | some last => if last = ".." then none else some last

/-- `Path::extension`: what stands behind the last dot of the file name, unless the name begins there -/
def extensionOf (path : String) : Option String := do
  let name ← fileNameOf path
  let parts := name.splitOn "."
  let last ← parts.getLast?
  if parts.length < 2 ∨ parts = ["", last] then none else some last

def mediaTypeFromPath (path : String) : String :=
  let ext := toAsciiLowercase ((extensionOf path).getD "")
  if ext ∈ ["txt", "md", "rs", "toml", "json", "yaml", "yml", "csv", "log"] then "text/plain"
  else if ext ∈ ["html", "htm"] then "text/html"
  else if ext = "css" then "text/css"
  else if ext ∈ ["js", "mjs"] then "text/javascript"
  else if ext = "png" then "image/png"
  else if ext ∈ ["jpg", "jpeg"] then "image/jpeg"
  else if ext = "gif" then "image/gif"
  else if ext = "svg" then "image/svg+xml"
  else if ext = "pdf" then "application/pdf"
  else if ext = "zip" then "application/zip"
  else "application/octet-stream"

structure FileMetadata where
  len : Nat
  modified : Option SystemTime

/-- `stat` and `opened` are what the file system answers for the local path -/
structure UploadTask where
  localPath : String
  parentUid : NodeUid
  stat : Except String FileMetadata
  opened : Except String Unit

def UploadTask.fileName (task : UploadTask) : String := (fileNameOf task.localPath).getD "unknown"

def UploadTask.metadata (task : UploadTask) (file : FileMetadata) : UploadMetadata :=
  { mediaType := mediaTypeFromPath task.localPath, expectedSize := file.len,
    expectedSha1Hex := none, modificationTime := file.modified, additionalMetadataJson := none,
    overrideExistingDraftByOtherClient := false }

section
variable (K : Crates) (client : ProtonDriveClient) (task : UploadTask)

/-- `upload_from_stream` runs `run_upload` with a cancellation token of its own; `fuel` bounds the
blocks as it does in `runUpload` -/
def uploadFromStream (uploader : ProtonFileUploader) (fuel : Nat) : Sdk Unit :=
  runUpload K uploader fuel

def doUpload (fuel : Nat) : Task Unit := do
  unlessCancelled "upload cancelled before start"
  let file ← orFailed ("stat " ++ task.localPath ++ ": ") task.stat
  if file.len = 0 then
    throw (.failed "upload: file is empty (server requires expected_size > 0)")
  else do
    let uploader ← mapErr "file_uploader: "
      (ofExcept id (fileUploader client task.parentUid task.fileName (task.metadata file)))
    orFailed ("open " ++ task.localPath ++ ": ") task.opened
    unlessCancelled "upload cancelled"
    mapErr "upload_from_stream: " (uploadFromStream K uploader fuel)

end

/-! ## transfers -/

inductive TransferState where
  | pending
  | running
  | completed
  | cancelled
  | failed (msg : String)
  deriving DecidableEq

def TransferState.isTerminal : TransferState → Bool
  | .completed => true
  | .cancelled => true
  | .failed _ => true
  | _ => false

/-- `progressRx` and `outcomeRx` are the values last sent on the two channels -/
structure Transfer where
  state : TransferState
  bytesDone : Nat
  progressRx : Nat
  outcomeRx : Option (Except String Unit)
  cancelled : Bool

namespace Transfer

/-- the transfer `spawn_download` returns -/
def spawned : Transfer :=
  { state := .running, bytesDone := 0, progressRx := 0, outcomeRx := none, cancelled := false }

/-- the new state, and whether the screen has to be drawn again -/
def poll (t : Transfer) : Transfer × Bool :=
  if t.state.isTerminal then (t, false)
  else
    let bytesChanged : Bool := t.progressRx ≠ t.bytesDone
    let t := if bytesChanged then { t with bytesDone := t.progressRx, state := .running } else t
    match t.outcomeRx with
    | none => (t, bytesChanged)
    | some (.ok ()) => ({ t with state := .completed }, true)
    | some (.error msg) => ({ t with state := .failed msg }, true)

def cancel (t : Transfer) : Transfer :=
  if t.state.isTerminal then t else { t with cancelled := true, state := .cancelled }

/-- what a call of the task does to the channels -/
def hear (t : Transfer) : HostCall → Transfer
  | .sendProgress bytes => { t with progressRx := bytes }
  | _ => t

/-- the token answers what it is -/
def Fits (t : Transfer) : Event host → Prop
  | ⟨.isCancelled .transfer, a⟩ => a = t.cancelled
  | _ => True

/-- the end of the task: the outcome is sent, but not by a task that panicked -/
def report (t : Transfer) : Except TaskFault Unit → Transfer
  | .ok () => { t with outcomeRx := some (.ok ()) }
  | .error (.failed msg) => { t with outcomeRx := some (.error msg) }
  | .error (.panicked _) => t

end Transfer

inductive Reached (task : Task Unit) : Trace host → Transfer → Prop
  | spawn : Reached task [] .spawned
  | call {tr : Trace host} {t : Transfer} {e : Event host} (h : Reached task tr t)
      (hrun : Runs task.run (tr ++ [e]) .running) (hfit : t.Fits e) :
      Reached task (tr ++ [e]) (t.hear e.call)
  | finish {tr : Trace host} {t : Transfer} {r : Except TaskFault Unit} (h : Reached task tr t)
      (hrun : Runs task.run tr (.done r)) : Reached task tr (t.report r)
  | poll {tr : Trace host} {t : Transfer} (h : Reached task tr t) : Reached task tr t.poll.1
  | cancel {tr : Trace host} {t : Transfer} (h : Reached task tr t) : Reached task tr t.cancel

section
variable {task : Task Unit} {tr : Trace host} {t : Transfer}

/-- what one look at the channels makes of a transfer -/
theorem Transfer.poll_cases (t : Transfer) :
    t.poll.1 = t ∨ t.poll.1.outcomeRx = t.outcomeRx ∧
      (t.poll.1.state = .completed → t.outcomeRx = some (.ok ())) := by
  unfold Transfer.poll
  by_cases hterm : t.state.isTerminal = true
  · rw [if_pos hterm]
    exact .inl rfl
  · rw [if_neg hterm]
    have hstate : t.state ≠ .completed := by
      intro hcompleted
      rw [hcompleted] at hterm
      exact hterm rfl
    right
    by_cases hbytes : t.progressRx = t.bytesDone
    · simp only [hbytes, ne_eq, not_true_eq_false, decide_false, Bool.false_eq_true, if_false]
      split
      · next hnone => exact ⟨rfl, fun h => absurd h hstate⟩
      · next hok => exact ⟨rfl, fun _ => hok⟩
      · next msg hfailed => exact ⟨rfl, nofun⟩
    · simp only [hbytes, ne_eq, not_false_eq_true, decide_true, if_true]
      split
      · next hnone => exact ⟨rfl, nofun⟩
      · next hok => exact ⟨rfl, fun _ => hok⟩
      · next msg hfailed => exact ⟨rfl, nofun⟩

theorem Transfer.poll_ok {t : Transfer} (hterm : t.state.isTerminal = false)
    (hok : t.outcomeRx = some (.ok ())) : t.poll.1.state = .completed := by
  unfold Transfer.poll
  rw [hterm]
  by_cases hbytes : t.progressRx = t.bytesDone <;> simp [hbytes, hok]

theorem Transfer.cancel_cases (t : Transfer) :
    t.cancel.outcomeRx = t.outcomeRx ∧ (t.cancel.state = .completed → t.state = .completed) := by
  unfold Transfer.cancel
  split
  · exact ⟨rfl, id⟩
  · exact ⟨rfl, nofun⟩

theorem Transfer.hear_state (t : Transfer) (c : HostCall) : (t.hear c).state = t.state := by
  cases c <;> rfl

theorem Transfer.hear_outcomeRx (t : Transfer) (c : HostCall) :
    (t.hear c).outcomeRx = t.outcomeRx := by
  cases c <;> rfl

theorem Transfer.report_state (t : Transfer) (r : Except TaskFault Unit) :
    (t.report r).state = t.state := by
  match r with
  | .ok () => rfl
  | .error (.failed _) => rfl
  | .error (.panicked _) => rfl

/-- what is true of every transfer that can be reached: an outcome comes from the task that is over,
and a completed transfer has the outcome `Ok` -/
structure Transfer.Sound (task : Task Unit) (tr : Trace host) (t : Transfer) : Prop where
  outcome : ∀ r, t.outcomeRx = some r → ∃ r', Runs task.run tr (.done r')
  outcome_ok : t.outcomeRx = some (.ok ()) → Runs task.run tr (.done (.ok ()))
  completed : t.state = .completed → t.outcomeRx = some (.ok ())

theorem Transfer.Sound.report (h : t.Sound task tr) {r : Except TaskFault Unit}
    (hrun : Runs task.run tr (.done r)) : (t.report r).Sound task tr := by
  match r with
  | .ok () => exact ⟨fun _ _ => ⟨_, hrun⟩, fun _ => hrun, fun _ => rfl⟩
  | .error (.failed msg) =>
    refine ⟨fun _ _ => ⟨_, hrun⟩, nofun, fun hcompleted => ?_⟩
    -- the task had not reported before, so the transfer was not completed
    have hok := h.outcome_ok (h.completed hcompleted)
    cases hrun.done_unique hok
  | .error (.panicked msg) => exact h

theorem Reached.sound (h : Reached task tr t) : t.Sound task tr := by
  induction h with
  | spawn => exact ⟨nofun, nofun, nofun⟩
  | @call tr t e _ hrun _ ih =>
    have hnone : t.outcomeRx = none := by
      cases hr : t.outcomeRx with
      | none => rfl
      | some r =>
        obtain ⟨r', hdone⟩ := ih.outcome r hr
        exact absurd hrun hdone.done_final
    refine ⟨fun r hr => ?_, fun hok => ?_, fun hcompleted => ?_⟩
    · rw [t.hear_outcomeRx, hnone] at hr
      cases hr
    · rw [t.hear_outcomeRx, hnone] at hok
      cases hok
    · rw [t.hear_state] at hcompleted
      rw [t.hear_outcomeRx]
      exact ih.completed hcompleted
  | finish _ hrun ih => exact ih.report hrun
  | @poll tr t _ ih =>
    rcases t.poll_cases with heq | ⟨houtcome, hcompleted⟩
    · rw [heq]
      exact ih
    · refine ⟨?_, ?_, ?_⟩
      · rw [houtcome]
        exact ih.outcome
      · rw [houtcome]
        exact ih.outcome_ok
      · rw [houtcome]
        exact hcompleted
  | @cancel tr t _ ih =>
    obtain ⟨houtcome, hcompleted⟩ := t.cancel_cases
    refine ⟨?_, ?_, fun h => ?_⟩
    · rw [houtcome]
      exact ih.outcome
    · rw [houtcome]
      exact ih.outcome_ok
    · rw [houtcome]
      exact ih.completed (hcompleted h)

theorem Reached.completed (h : Reached task tr t) (hdone : t.state = .completed) :
    Runs task.run tr (.done (.ok ())) := h.sound.outcome_ok (h.sound.completed hdone)

/-- a task that nobody cancels can make its calls one after the other -/
theorem Reached.of_runs (hrun : Runs task.run tr .running)
    (hfree : ∀ e ∈ tr, ∀ a, e = ⟨.isCancelled .transfer, a⟩ → a = false) :
    ∃ t, Reached task tr t ∧ t.state = .running ∧ t.cancelled = false := by
  induction tr using List.reverseRecOn with
  | nil => exact ⟨_, .spawn, rfl, rfl⟩
  | append_singleton tr e ih =>
    obtain ⟨t, ht, hstate, hcancelled⟩ :=
      ih (hrun.take tr) fun e' he' => hfree e' (List.mem_append_left _ he')
    refine ⟨t.hear e.call, .call ht hrun ?_, (t.hear_state _).trans hstate, ?_⟩
    · obtain ⟨c, a⟩ := e
      cases c with
      | isCancelled token =>
        cases token with
        | transfer =>
          show a = t.cancelled
          rw [hcancelled]
          exact hfree _ (List.mem_append_right _ (List.mem_singleton.mpr rfl)) a rfl
        | _ => trivial
      | _ => trivial
    · rw [← hcancelled]
      cases e.call <;> rfl

theorem Reached.of_done (hrun : Runs task.run tr (.done (.ok ())))
    (hfree : ∀ e ∈ tr, ∀ a, e = ⟨.isCancelled .transfer, a⟩ → a = false) :
    ∃ t, Reached task tr t ∧ t.state = .completed := by
  have hpartial : Runs task.run tr .running := by
    rw [← List.append_nil tr] at hrun
    exact hrun.take tr
  obtain ⟨t, ht, hstate, _⟩ := Reached.of_runs hpartial hfree
  refine ⟨_, .poll (.finish ht hrun), ?_⟩
  refine Transfer.poll_ok ?_ rfl
  rw [t.report_state, hstate]
  rfl

end

/-! ## a finished download -/

/-- the file a trace leaves: created empty, then what the writer took -/
def fileAfter : Option (String × Bytes) → Event host → Option (String × Bytes)
  | _, ⟨.createFile path, .ok _⟩ => some (path, [])
  | file, ⟨.writeAll data, a⟩ => file.map fun f => (f.1, f.2 ++ takenBytes data a)
  | file, _ => file

def destination (tr : Trace host) : Option (String × Bytes) := tr.foldl fileAfter none

def isCreate : HostCall → Bool
  | .createFile _ => true
  | _ => false

theorem fileAfter_of_not_create {e : Event host} (h : isCreate e.call = false) (path : String)
    (bs : Bytes) : fileAfter (some (path, bs)) e = some (path, bs ++ writtenBy e) := by
  obtain ⟨c, a⟩ := e
  cases c with
  | createFile path => cases h
  | writeAll data => rfl
  | _ => exact congrArg (fun bs => some (path, bs)) (List.append_nil bs).symm

theorem foldl_fileAfter {tr : Trace host} (h : ∀ e ∈ tr, isCreate e.call = false) (path : String)
    (bs : Bytes) : tr.foldl fileAfter (some (path, bs)) = some (path, bs ++ written tr) := by
  induction tr generalizing bs with
  | nil => rw [written_nil, List.append_nil, List.foldl_nil]
  | cons e tr ih =>
    rw [List.foldl_cons, fileAfter_of_not_create (h e List.mem_cons_self),
      ih (fun e' he' => h e' (List.mem_cons_of_mem _ he')), written_cons, List.append_assoc]

section
variable {K : Crates} {client : ProtonDriveClient} {task : DownloadTask} {tr : Trace host}

/-- a download task that has returned `Ok` -/
structure FinishedDownload (K : Crates) (client : ProtonDriveClient) (task : DownloadTask)
    (tr : Trace host) where
  dl : FileDownloader
  stats : DownloadStats
  /-- the calls of `file_downloader` and those of `download_to_writer` -/
  setup : Trace host
  body : Trace host
  shape : tr = ⟨.isCancelled .transfer, false⟩ :: (setup ++
    (⟨.createFile task.destPath, .ok ()⟩ :: ⟨.sendProgress 0, ()⟩ ::
      ⟨.isCancelled .transfer, false⟩ :: (body ++ [⟨.sendProgress stats.bytes, ()⟩])))
  resolved : Runs (fileDownloader K client task.nodeUid).run setup (.done (.ok dl))
  downloaded : Runs (downloadToWriter K dl).run body (.done (.ok stats))

theorem orFailed_ok {α : Type} {label : String} {r : Except String α} {a : α}
    (h : Runs (orFailed label r).run tr (.done (.ok a))) : tr = [] ∧ r = .ok a := by
  cases r with
  | ok b =>
    obtain ⟨rfl, rfl⟩ := pure_ok h
    exact ⟨rfl, rfl⟩
  | error e => obtain ⟨_, h | h⟩ := Runs.ret_inv h <;> cases h

theorem unlessCancelled_ok {msg : String} {u : Unit}
    (h : Runs (unlessCancelled msg).run tr (.done (.ok u))) :
    tr = [⟨.isCancelled .transfer, false⟩] := by
  obtain ⟨cancelled, t₁, u₁, rfl, h₁, k₁⟩ := h.bindE_ok
  obtain rfl := perform_ok h₁
  change Bool at cancelled
  cases cancelled with
  | true => obtain ⟨_, k₁ | k₁⟩ := Runs.ret_inv k₁ <;> cases k₁
  | false =>
    obtain ⟨rfl, _⟩ := pure_ok k₁
    rfl

theorem doDownload_ok {u : Unit} (h : Runs (doDownload K client task).run tr (.done (.ok u))) :
    Nonempty (FinishedDownload K client task tr) := by
  obtain ⟨_, t₁, u₁, rfl, h₁, k₁⟩ := h.bindE_ok
  obtain ⟨dl, t₂, u₂, rfl, h₂, k₂⟩ := k₁.bindE_ok
  obtain ⟨created, t₃, u₃, rfl, h₃, k₃⟩ := k₂.bindE_ok
  obtain ⟨_, t₄, u₄, rfl, h₄, k₄⟩ := k₃.bindE_ok
  obtain ⟨_, t₅, u₅, rfl, h₅, k₅⟩ := k₄.bindE_ok
  obtain ⟨_, t₆, u₆, rfl, h₆, k₆⟩ := k₅.bindE_ok
  obtain ⟨stats, t₇, u₇, rfl, h₇, k₇⟩ := k₆.bindE_ok
  obtain rfl := unlessCancelled_ok h₁
  obtain rfl := perform_ok h₃
  obtain ⟨rfl, rfl⟩ := orFailed_ok h₄
  obtain rfl := perform_ok h₅
  obtain rfl := unlessCancelled_ok h₆
  obtain rfl := perform_ok k₇
  exact ⟨{ dl, stats, setup := t₂, body := t₇, shape := rfl, resolved := Runs.adapt_ok.mp h₂,
           downloaded := Runs.adapt_ok.mp h₇ }⟩

theorem unlessCancelled_runs (msg : String) :
    Runs (unlessCancelled msg).run [⟨.isCancelled .transfer, false⟩] (.done (.ok ())) :=
  .call (.ret _)

/-- the converse of `doDownload_ok` -/
theorem FinishedDownload.runs (d : FinishedDownload K client task tr) :
    Runs (doDownload K client task).run tr (.done (.ok ())) := by
  rw [d.shape]
  refine Runs.bindE_one (unlessCancelled_runs _) ?_
  refine Runs.bindE (Runs.adapt_ok.mpr d.resolved) ?_
  refine Runs.bindE_one (.call (.ret _)) ?_
  refine Runs.bindE_none (.ret _) ?_
  refine Runs.bindE_one (.call (.ret _)) ?_
  refine Runs.bindE_one (unlessCancelled_runs _) ?_
  refine Runs.bindE (Runs.adapt_ok.mpr d.downloaded) ?_
  exact .call (.ret _)

end

end ProtonDrive
