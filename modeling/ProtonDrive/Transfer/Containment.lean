import ProtonDrive.Transfer.Disk
import ProtonDrive.Listing.Pages
import ProtonDrive.Ui.Coherent

/-!
# Where a download goes

The name of a remote file is what its owner, or whoever may write to its folder, has encrypted.  It is
joined to the directory of the local pane as it is.

* `Confined`              the directory with the name behind it is the path of a child of the directory,
                          or the path of no file;
* `KeepsTo`, `StaysIn`    no file is opened or written but children of the directory;
* `DownloadContained`     downloads started in the interface of a file of the name stay in the directory;
* `download_contained`    they do exactly if the name is confined.
-/

set_option linter.unusedVariables false

namespace ProtonDrive
open Encoding Effects Files Api

/-! ## what is asked of a name -/

/-- the directory with the name behind it: its route goes through the directory to a file, or it is the
path of no file, since it leads no further than to the directory -/
def Confined (destDir name : String) : Prop :=
  match fileRoute (pathJoin destDir name) with
  | none => True
  | some (r, x) => r.normal = (routeOf destDir).normal ∨
      (r.child x).normal.OnWayTo (routeOf destDir).normal

instance (destDir name : String) : Decidable (Confined destDir name) := by
  unfold Confined
  split <;> infer_instance

theorem confined_iff {destDir name : String} : Confined destDir name ↔
    ∀ (V : Dirs) (D : V.Dir), V.dirOf (routeOf destDir) = some D →
      ∀ d x, opens V (pathJoin destDir name) = some (d, x) → d = D := by
  unfold Confined opens
  cases hroute : fileRoute (pathJoin destDir name) with
  | none => exact ⟨fun _ V D _ d x h => (nomatch h), fun _ => trivial⟩
  | some f =>
    obtain ⟨r, x⟩ := f
    exact (place_within_iff (fileRoute_name hroute)).symm

/-! ## what is asked of a download -/

/-- a download that leaves `disk` has had no effect outside of the directory `D`; where it has opened no
file it has done nothing, and has not returned `Ok` -/
structure KeepsTo {V : Dirs} (D : V.Dir) (files : Contents V) (disk : Disk V)
    (o : Outcome (Except TaskFault Unit)) : Prop where
  child : ∀ d x, disk.writer = some (d, x) → d = D
  outside : ∀ d x, d ≠ D → disk.content d x = files d x
  untouched : disk.writer = none → disk.content = files ∧ o ≠ .done (.ok ())

def StaysIn (K : Crates) (client : ProtonDriveClient) (task : DownloadTask) (destDir : String) : Prop :=
  ∀ (V : Dirs) (D : V.Dir), V.dirOf (routeOf destDir) = some D → ∀ files tr o,
    Runs (doDownload K client task).run tr o → Honest V tr → KeepsTo D files (diskAfter files tr) o

/-- the cursor of the remote pane is on a child whose name is decrypted to `name` -/
def PointsAt (K : Crates) (client : ProtonDriveClient) (panes : Panes) (name : String) : Prop :=
  ∃ parent key link entry selected,
    decryptNodeName K client.openpgp link.name key = .ok name ∧
    remoteEntry (childNode K client parent (some key) link) = some entry ∧
    panes.remotePane.under = some { entry with selected }

def DownloadContained (destDir name : String) : Prop :=
  ∀ K client app h, AppReached (fun _ _ _ => True) app h → PointsAt K client app.panes name →
    app.panes.localPane.cwd = destDir → ∀ i t app', Runs (App.step i app) t (.done app') →
      ∀ c uid nodeName dest a, (⟨.spawnDownload c uid nodeName dest, a⟩ : Event ui) ∈ t →
        StaysIn K client { nodeUid := uid, nodeName, destDir := dest } destDir

/-! ## names that are confined -/

section
variable {K : Crates} {client : ProtonDriveClient} {task : DownloadTask}

/-- a download that has returned `Ok` has opened its file -/
theorem FinishedDownload.created {tr : Trace host} (d : FinishedDownload K client task tr) :
    destination tr = some (task.destPath, written d.body) := by
  have htrace := d.destination_traceOf d.downloaded
  rw [d.traceOf_body] at htrace
  exact htrace

theorem staysIn_of_confined (h : Confined task.destDir task.nodeName) :
    StaysIn K client task task.destDir := by
  intro V D hD files tr o hrun hhonest
  obtain ⟨hdisk, hfile⟩ := diskAfter_eq files (hrun.only doDownload_creates) hhonest
  have hwithin := confined_iff.mp h V D hD
  cases hdest : destination tr with
  | none =>
    rw [hdisk, hdest]
    refine ⟨nofun, fun _ _ _ => rfl, fun _ => ⟨rfl, ?_⟩⟩
    intro hok
    rw [hok] at hrun
    obtain ⟨d⟩ := doDownload_ok hrun
    rw [d.created] at hdest
    cases hdest
  | some f =>
    obtain ⟨path, bs⟩ := f
    obtain ⟨rfl, hopens⟩ := hfile path bs hdest
    obtain ⟨⟨d, x⟩, hplace⟩ := Option.isSome_iff_exists.mp hopens
    obtain rfl : d = D := hwithin d x hplace
    rw [hdisk, hdest, placedFile_some hplace]
    refine ⟨fun d' x' heq => by cases heq; rfl, fun d' x' hne => ?_, nofun⟩
    exact files.set_other bs fun heq => hne (congrArg Prod.fst heq)

end

/-- the name comes from the entry under the cursor as it was decrypted -/
theorem PointsAt.name_eq {K : Crates} {client : ProtonDriveClient} {panes : Panes} {name : String}
    (h : PointsAt K client panes name) {entry : PaneEntry}
    (hunder : panes.remotePane.under = some entry) : entry.name = name := by
  obtain ⟨parent, key, link, entry', selected, hname, hentry, hunder'⟩ := h
  rw [hunder'] at hunder
  cases hunder
  show entry'.name = name
  unfold childNode linkToMaybeNode remoteEntry at hentry
  simp only [Option.bind_some, hname] at hentry
  split at hentry
  · cases hentry
  · cases hentry
    rfl

/-! ## names that are not -/

def dirKey : PrivateKey := { armored := "dir", fingerprintHex := "dir", passphrase := "p" }

/-- the file of the small transfer, in a folder whose key is `dirKey` -/
def namedLink (name : String) : Nodes.Link :=
  { longChild 0 with linkId := "file", name := sealedFor "dir" (asBytes name) }

theorem decryptNodeName_of {K : Crates} {P : OpenPgpCrypto} {armoredName name : String}
    {key : PrivateKey} {sessionKey : SessionKey} {status : VerificationStatus}
    (hkey : P.decryptSessionKey (asBytes armoredName) [key] = .ok sessionKey)
    (htext : P.decryptAndVerify (asBytes armoredName) sessionKey [] = .ok (asBytes name, status)) :
    decryptNodeName K P armoredName key = .ok name := by
  unfold decryptNodeName
  simp only [hkey]
  show (((P.decryptAndVerify (asBytes armoredName) sessionKey []).mapError _) >>= _) = _
  simp only [htext, Except.mapError, bind, Except.bind, fromUtf8_asBytes]
  rfl

theorem namedLink_decrypted (K : Crates) (name : String) :
    decryptNodeName K transparentCrypto (namedLink name).name dirKey = .ok name := by
  obtain ⟨message, hsealed, hseal⟩ := sealedFor_eq "dir" (asBytes name)
  have hname : (namedLink name).name = armor message .message := hsealed
  obtain ⟨status, hplain⟩ := transparent_ideal.decrypt hseal
  rw [hname]
  have hkey : transparentCrypto.decryptSessionKey (asBytes (armor message .message)) [dirKey] =
      .ok { data := [7], cipherAlgorithm := 9, aead := .none } := by
    rw [transparent_ideal.armored_sessionKey _ hseal]
    exact transparent_ideal.unwrap_message hseal (List.mem_singleton_self _) rfl
  have htext : transparentCrypto.decryptAndVerify (asBytes (armor message .message))
      { data := [7], cipherAlgorithm := 9, aead := .none } [] = .ok (asBytes name, status) := by
    rw [transparent_ideal.armored_message _ _ hseal]
    exact hplain
  exact decryptNodeName_of hkey htext

/-- its node -/
def namedNode (name : String) : Node where
  uid := shortTask.nodeUid
  parent := none
  name := name
  nodeType := .file
  mediaType := none
  sizeBytes := some 0
  createdAt := 0
  modifiedAt := 0
  trashed := false
  author := .anonymous
  activeRevision := none

theorem namedNode_eq (K : Crates) (name : String) :
    childNode K smallClient longParent (some dirKey) (namedLink name) = .node (namedNode name) := by
  unfold childNode
  rw [Option.bind_some, show smallClient.openpgp = transparentCrypto from rfl,
    namedLink_decrypted K name]
  rfl

/-- the entry of the node -/
def namedEntry (name : String) : PaneEntry where
  name := name
  isDir := false
  sizeBytes := some 0
  selected := false
  nodeUid := some shortTask.nodeUid

/-- a stored session is resumed, and its root holds the file -/
def namedScene (destDir name : String) (h : Trace ui) : (c : UiCall) → ui.Ans c
  | .storedSession => true
  | .currentDir => some destDir
  | .readDir _ => .ok []
  | .newTransport => .ok ()
  | .resumeSession => .ok { id := 1, keyPassword := "" }
  | .loginSession _ => .error ""
  | .bootstrapAccount _ _ _ => .ok 1
  | .myFilesRoot _ => .ok (sceneNode "root" "root" .folder)
  | .folderChildren _ _ => [.ok (.node (namedNode name))]
  | .spawnLogin _ _ => ()
  | .authFinished => none
  | .spawnUpload _ _ _ => ()
  | .spawnDownload _ _ _ _ => ()
  | .pollKey => none

/-- the interface starts with its cursor on the file, and can start the download -/
theorem namedScene_start (destDir name : String) : ∃ app h,
    AppReached (fun _ _ _ => True) app h ∧ app.panes.localPane.cwd = destDir ∧
    app.panes.remotePane.under = some (namedEntry name) ∧
    ∃ t app' c, Runs (App.step (.action .download) app) t (.done app') ∧
      (⟨.spawnDownload c shortTask.nodeUid name destDir, ()⟩ : Event ui) ∈ t := by
  obtain ⟨app, h, hexec, hcwd, hunder, hclient, herror⟩ : ∃ app h,
      exec (namedScene destDir name) [] App.start = (h, some app) ∧
      app.panes.localPane.cwd = destDir ∧ app.panes.remotePane.under = some (namedEntry name) ∧
      app.client = some { session := { id := 1, keyPassword := "" }, account := 1 } ∧
      app.panes.remotePane.error = none := ⟨_, _, rfl, rfl, rfl, rfl, rfl⟩
  have hrun := exec_runs (namedScene destDir name) [] App.start app (congrArg Prod.snd hexec)
  have hselected : app.panes.selectedRemoteNode = some (shortTask.nodeUid, name) := by
    unfold Panes.selectedRemoteNode
    rw [herror, hunder]
    rfl
  refine ⟨app, _, .init hrun, hcwd, hunder, ?_⟩
  show ∃ t app' c, Runs (startDownload app) t (.done app') ∧ _
  unfold startDownload
  rw [hclient, hselected, hcwd]
  exact ⟨_, _, _, .call (.ret _), List.mem_singleton_self _⟩

/-- a download up to the file it opens -/
theorem shortDownload_opens (name destDir : String) : ∃ setup,
    Runs (doDownload shortCrates smallClient
      { nodeUid := shortTask.nodeUid, nodeName := name, destDir }).run
      (setup ++ [⟨.createFile (pathJoin destDir name), .ok ()⟩]) .running := by
  have hresolved := resolves_spec rfl resolveRun_resolves
  refine ⟨⟨.isCancelled .transfer, false⟩ :: resolveRun.1, ?_⟩
  refine Runs.bindE_one (unlessCancelled_runs _) ?_
  refine Runs.bindE (Runs.adapt_ok.mpr hresolved) ?_
  exact .call (.stop _)

/-- a file system in which the path leads out of the directory is one in which the download opens a
file there -/
theorem not_contained_of_opens {destDir name : String} {V : Dirs} {D d : V.Dir} {x : String}
    (hD : V.dirOf (routeOf destDir) = some D) (hopens : opens V (pathJoin destDir name) = some (d, x))
    (hne : d ≠ D) : ¬ DownloadContained destDir name := by
  intro hcontained
  obtain ⟨app, h, happ, hcwd, hunder, t, app', c, hstep, hspawn⟩ := namedScene_start destDir name
  have hpoints : PointsAt shortCrates smallClient app.panes name := by
    refine ⟨longParent, dirKey, namedLink name, namedEntry name, false,
      namedLink_decrypted _ name, ?_, hunder⟩
    rw [namedNode_eq]
    rfl
  have hstays := hcontained _ _ app h happ hpoints hcwd _ t app' hstep c _ _ _ _ hspawn
  obtain ⟨setup, hrun⟩ := shortDownload_opens name destDir
  have hcreates := hrun.only doDownload_creates
  have hhonest : Honest V (setup ++ [⟨.createFile (pathJoin destDir name), .ok ()⟩]) := by
    intro p hp
    rw [show p = pathJoin destDir name from hcreates _ hp p rfl, hopens]
    rfl
  have hkeeps := hstays V D hD (fun _ _ => none) _ _ hrun hhonest
  have hdisk := (diskAfter_eq (fun _ _ => none) hcreates hhonest).1
  have hdest : destination (setup ++ [⟨.createFile (pathJoin destDir name), .ok ()⟩]) =
      some (pathJoin destDir name, []) := List.foldl_concat ..
  rw [hdest, placedFile_some hopens] at hdisk
  refine hne (hkeeps.child d x ?_)
  rw [hdisk]
  rfl

/-- downloads of a file stay in the directory exactly if its name is confined -/
theorem download_contained (destDir name : String) :
    DownloadContained destDir name ↔ Confined destDir name := by
  constructor
  · intro hcontained
    rw [confined_iff]
    intro V D hD d x hopens
    by_contra hne
    exact not_contained_of_opens hD hopens hne hcontained
  · intro hconfined K client app h happ hpoints hcwd i t app' hrun c uid nodeName dest a hspawn
    obtain ⟨hdest, _, _, entry, hentry, _, _, hname⟩ := (App.step_does hrun).download hspawn
    obtain rfl : dest = destDir := hdest.trans hcwd
    obtain rfl : nodeName = name := hname.symm.trans (hpoints.name_eq hentry)
    exact staysIn_of_confined hconfined

example : Confined "/home/u" "notes" ∧ ¬ Confined "/home/u" "/etc/passwd" := by decide +kernel

/-! ## out of the directory -/

/-- the name leads to the directory above, where the file is opened -/
theorem upwardName_escapes : ¬ DownloadContained "/home/u" "../notes" := by
  have hD : homeDirs.dirOf (routeOf "/home/u") = some (2 : Nat) := rfl
  have hopens : opens homeDirs (pathJoin "/home/u" "../notes") = some ((1 : Nat), "notes") := rfl
  exact not_contained_of_opens hD hopens (show (1 : Nat) ≠ 2 by decide)

end ProtonDrive
