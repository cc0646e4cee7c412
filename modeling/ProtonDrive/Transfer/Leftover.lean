import ProtonDrive.Transfer.Disk

/-!
# What a failed download leaves

`File::create` empties the file before the first block is asked for, and nothing puts back what it held.

* `OpensFile`             a download comes to open its file;
* `doDownload_opens`, `doDownload_unopened`
                          what the trace shows of a download that does, and of one that does not;
* `failedDownload_restores`
                          a download that fails leaves its file as it was exactly if it fails before it opens
                          it, or if the file held what has been written;
* `lostCopy_emptied`      a connection that is lost at the first block costs the local copy.
-/

set_option linter.unusedVariables false

namespace ProtonDrive
open Encoding Effects Files

/-! ## up to the file -/

/-- the first look at the token of a transfer that is not cancelled -/
def passedStart : Event host := ⟨.isCancelled .transfer, false⟩

/-- the transfer is not cancelled before it begins, there is a downloader, and the file can be opened -/
structure OpensFile (K : Crates) (client : ProtonDriveClient) (task : DownloadTask)
    (serve : Trace host → (c : HostCall) → c.Ans) : Prop where
  begins : serve [] (.isCancelled .transfer) = false
  opened : ∃ setup dl, Yields serve [passedStart] (fileDownloader K client task.nodeUid) setup dl ∧
    serve (passedStart :: setup) (.createFile task.destPath) = .ok ()

section
variable {serve : Trace host → (c : HostCall) → c.Ans} {h tr : Trace host} {α : Type} {label : String}
  {p : Sdk α}

theorem mapErr_exec {r : Except Fault α} (hx : exec serve h p.run = (tr, some r)) :
    exec serve h (mapErr label p).run = (tr, some (r.mapError (TaskFault.of label))) := by
  have hrun : (mapErr label p).run = p.run >>= fun r => pure (r.mapError (TaskFault.of label)) :=
    map_eq_pure_bind _ _
  rw [hrun, exec_bind serve h p.run _ hx]
  show (tr ++ [], _) = _
  rw [List.append_nil]
  rfl

theorem mapErr_exec_none (hx : (exec serve h p.run).2 = none) :
    (exec serve h (mapErr label p).run).2 = none := by
  have hrun : (mapErr label p).run = p.run >>= fun r => pure (r.mapError (TaskFault.of label)) :=
    map_eq_pure_bind _ _
  rw [hrun]
  exact exec_bind_none serve h p.run _ hx

theorem perform_answered {c : HostCall} {ans : c.Ans} (hans : serve h c = ans) :
    Yields serve h (perform c) [⟨c, ans⟩] ans := by
  rw [← hans]
  rfl

theorem unlessCancelled_passes {msg : String} (hans : serve h (.isCancelled .transfer) = false) :
    Yields serve h (unlessCancelled msg) [⟨.isCancelled .transfer, false⟩] () :=
  exec_bindE serve h _ _ (perform_answered hans)

theorem unlessCancelled_stops {msg : String} (hans : serve h (.isCancelled .transfer) = true) :
    exec serve h (unlessCancelled msg).run =
      ([⟨.isCancelled .transfer, true⟩], some (.error (.failed msg))) :=
  exec_bindE serve h _ _ (perform_answered hans)

end

section
variable {K : Crates} {client : ProtonDriveClient} {task : DownloadTask}
  {serve : Trace host → (c : HostCall) → c.Ans} {tr : Trace host}

theorem fileAfter_none {e : Event host} (h : isCreate e.call = false) : fileAfter none e = none := by
  obtain ⟨c, a⟩ := e
  cases c with
  | createFile path => cases h
  | _ => rfl

/-- a trace in which no file is opened shows none -/
theorem destination_none (h : ∀ e ∈ tr, fileAfter none e = none) : destination tr = none := by
  induction tr using List.reverseRecOn with
  | nil => rfl
  | append_singleton tr e ih =>
    unfold destination at ih ⊢
    rw [List.foldl_concat, ih fun e' he' => h e' (List.mem_append_left _ he')]
    exact h e List.mem_concat_self

/-- and one in which a file is opened shows a file -/
theorem destination_isSome (pre post : Trace host) (path : String) :
    (destination (pre ++ ⟨.createFile path, .ok ()⟩ :: post)).isSome = true := by
  have hkept : ∀ (tr : Trace host) (file : String × Bytes),
      (tr.foldl fileAfter (some file)).isSome = true := by
    intro tr
    induction tr with
    | nil => exact fun file => rfl
    | cons e tr ih =>
      intro file
      obtain ⟨file', hfile'⟩ : ∃ file', fileAfter (some file) e = some file' := by
        obtain ⟨c, a⟩ := e
        cases c with
        | createFile path => cases a <;> exact ⟨_, rfl⟩
        | _ => exact ⟨_, rfl⟩
      rw [List.foldl_cons, hfile']
      exact ih file'
  unfold destination
  rw [List.foldl_append, List.foldl_cons]
  exact hkept post (path, [])

theorem doDownload_opens (hopens : OpensFile K client task serve) :
    (destination (exec serve [] (doDownload K client task).run).1).isSome = true := by
  obtain ⟨hbegins, setup, dl, hsetup, hcreate⟩ := hopens
  have hstart : Yields serve [] (unlessCancelled "download cancelled before start") [passedStart] () :=
    unlessCancelled_passes hbegins
  have hmade : Yields serve ([] ++ [passedStart]) (mapErr "file_downloader: "
      (fileDownloader K client task.nodeUid)) setup dl := mapErr_exec hsetup
  have hcreated : Yields serve (([] ++ [passedStart]) ++ setup) (perform (.createFile task.destPath))
      [⟨.createFile task.destPath, .ok ()⟩] (.ok ()) := perform_answered hcreate
  unfold doDownload
  rw [exec_bindE serve [] _ _ hstart, exec_bindE serve _ _ _ hmade, exec_bindE serve _ _ _ hcreated]
  exact destination_isSome ([passedStart] ++ setup) _ _

/-- a search for a downloader opens no file, and neither does an attempt that fails -/
theorem opening_unopened {h : Trace host} {rest : FileDownloader → Task Unit} {label : String}
    {r : Except TaskFault Unit}
    (hno : ∀ setup dl, Yields serve h (fileDownloader K client task.nodeUid) setup dl →
      serve (h ++ setup) (.createFile task.destPath) ≠ .ok ())
    (hret : exec serve h (do
      let dl ← mapErr "file_downloader: " (fileDownloader K client task.nodeUid)
      let created ← perform (.createFile task.destPath)
      orFailed label created
      rest dl : Task Unit).run = (tr, some r)) : ∀ e ∈ tr, fileAfter none e = none := by
  have hquiet : ∀ {setup o}, Runs (fileDownloader K client task.nodeUid).run setup o →
      ∀ e ∈ setup, fileAfter none e = none := by
    intro setup o hrun e he
    have hcalls : Only (fun c => isCreate c = false) (fileDownloader K client task.nodeUid).run :=
      only_fileDownloader (fun _ => rfl) _
    exact fileAfter_none (hrun.only hcalls e he)
  cases hsetup : exec serve h (fileDownloader K client task.nodeUid).run with
  | mk setup result =>
    cases result with
    | none =>
      have hnone := congrArg Prod.snd hret
      rw [exec_bindE_none serve h _ _ (mapErr_exec_none (congrArg Prod.snd hsetup))] at hnone
      cases hnone
    | some result =>
      have hrun := exec_runs serve h _ result (congrArg Prod.snd hsetup)
      rw [hsetup] at hrun
      cases result with
      | error f =>
        rw [exec_bindE_error serve h _ _ (mapErr_exec hsetup)] at hret
        cases hret
        exact hquiet hrun
      | ok dl =>
        cases hcreate : serve (h ++ setup) (.createFile task.destPath) with
        | ok u => exact absurd hcreate (hno setup dl hsetup)
        | error e =>
          have hcreated : Yields serve (h ++ setup) (perform (.createFile task.destPath))
              [⟨.createFile task.destPath, .error e⟩] (.error e) := perform_answered hcreate
          rw [exec_bindE serve h _ _ (mapErr_exec hsetup), exec_bindE serve _ _ _ hcreated] at hret
          cases hret
          intro e' he'
          rcases List.mem_append.mp he' with he' | he'
          · exact hquiet hrun e' he'
          · rw [List.mem_singleton.mp he']
            rfl

theorem doDownload_unopened (hno : ¬ OpensFile K client task serve) {r : Except TaskFault Unit}
    (hret : exec serve [] (doDownload K client task).run = (tr, some r)) : destination tr = none := by
  apply destination_none
  unfold doDownload at hret
  cases hbegins : serve [] (.isCancelled .transfer) with
  | true =>
    rw [exec_bindE_error serve [] _ _ (unlessCancelled_stops hbegins)] at hret
    cases hret
    intro e he
    rw [List.mem_singleton.mp he]
    rfl
  | false =>
    have hstart : Yields serve [] (unlessCancelled "download cancelled before start") [passedStart] () :=
      unlessCancelled_passes hbegins
    rw [exec_bindE serve [] _ _ hstart] at hret
    obtain ⟨htr, hr⟩ := Prod.mk.inj hret
    have hrest := opening_unopened (fun setup dl hsetup hcreate =>
      hno ⟨hbegins, setup, dl, hsetup, hcreate⟩) (Prod.ext rfl hr)
    intro e he
    rw [← htr] at he
    rcases List.mem_cons.mp he with rfl | he
    · rfl
    · exact hrest e he

end

/-! ## what is left of the file -/

section
variable {K : Crates} {client : ProtonDriveClient} {task : DownloadTask} {V : Dirs}
  {serve : Trace host → (c : HostCall) → c.Ans} {tr : Trace host}

/-- the file under the path is as it was, and there is none if there was none -/
def Restored (files : Contents V) (path : String) (tr : Trace host) : Prop :=
  ∀ d x, opens V path = some (d, x) → (diskAfter files tr).content d x = files d x

/-- the bytes that a download has written when it ends -/
theorem failedDownload_leaves (files : Contents V)
    (hhonest : ∀ h path, serve h (.createFile path) = .ok () → (opens V path).isSome = true)
    {r : Except TaskFault Unit} (hret : exec serve [] (doDownload K client task).run = (tr, some r))
    {d : V.Dir} {x : String} (hplace : opens V task.destPath = some (d, x)) :
    (OpensFile K client task serve ∧ ∃ bs, destination tr = some (task.destPath, bs) ∧
      (diskAfter files tr).content d x = some bs) ∨
    (¬ OpensFile K client task serve ∧ (diskAfter files tr).content d x = files d x) := by
  have hrun := exec_runs serve [] _ r (congrArg Prod.snd hret)
  rw [hret] at hrun
  have hcreates := hrun.only doDownload_creates
  have hserved := exec_served serve [] (doDownload K client task).run
  rw [hret] at hserved
  have htrace : Honest V tr := by
    intro path hpath
    obtain ⟨h, hans⟩ := hserved _ hpath
    exact hhonest h path hans.symm
  obtain ⟨hdisk, hfile⟩ := diskAfter_eq files hcreates htrace
  by_cases hopens : OpensFile K client task serve
  · left
    have hsome := doDownload_opens hopens
    rw [hret] at hsome
    obtain ⟨⟨path, bs⟩, hdest⟩ := Option.isSome_iff_exists.mp hsome
    obtain ⟨rfl, _⟩ := hfile path bs hdest
    refine ⟨hopens, bs, hdest, ?_⟩
    rw [hdisk, hdest, placedFile_some hplace]
    exact files.set_self d x bs
  · right
    refine ⟨hopens, ?_⟩
    rw [hdisk, doDownload_unopened hopens hret]
    rfl

/-- a download that fails leaves its file as it was, whatever was in it, exactly if it does not come to
open it; for given contents also if they are the bytes that have been written -/
theorem failedDownload_restores
    (hhonest : ∀ h path, serve h (.createFile path) = .ok () → (opens V path).isSome = true)
    {msg : String}
    (hfailed : exec serve [] (doDownload K client task).run = (tr, some (.error (.failed msg)))) :
    ((∀ files : Contents V, Restored files task.destPath tr) ↔ ¬ OpensFile K client task serve) ∧
    ∀ files : Contents V, Restored files task.destPath tr ↔ ¬ OpensFile K client task serve ∨
      ∀ d x, opens V task.destPath = some (d, x) → files d x = (destination tr).map Prod.snd := by
  constructor
  · constructor
    · intro hrestored hopens
      obtain ⟨setup, dl, _, hcreate⟩ := hopens.opened
      obtain ⟨⟨d, x⟩, hplace⟩ := Option.isSome_iff_exists.mp (hhonest _ _ hcreate)
      have hleaves := failedDownload_leaves (fun _ _ => none) hhonest hfailed hplace
      rcases hleaves with ⟨_, bs, _, hbs⟩ | ⟨hno, _⟩
      · rw [hrestored (fun _ _ => none) d x hplace] at hbs
        cases hbs
      · exact hno hopens
    · intro hno files d x hplace
      rcases failedDownload_leaves files hhonest hfailed hplace with ⟨hopens, _⟩ | ⟨_, hsame⟩
      · exact absurd hopens hno
      · exact hsame
  · intro files
    constructor
    · intro hrestored
      by_cases hopens : OpensFile K client task serve
      · right
        intro d x hplace
        rcases failedDownload_leaves files hhonest hfailed hplace with ⟨_, bs, hdest, hbs⟩ | ⟨hno, _⟩
        · rw [← hrestored d x hplace, hbs, hdest]
          rfl
        · exact absurd hopens hno
      · exact .inl hopens
    · intro hcond d x hplace
      rcases failedDownload_leaves files hhonest hfailed hplace with ⟨hopens, bs, hdest, hbs⟩ | ⟨_, hsame⟩
      · have hheld := hcond.resolve_left (not_not.mpr hopens) d x hplace
        rw [hbs, hheld, hdest]
        rfl
      · exact hsame

end

/-! ## a connection that is lost -/

/-- the directory `/home/u` with the file system around it -/
def notesTask : DownloadTask :=
  { nodeUid := shortTask.nodeUid, nodeName := "notes", destDir := "/home/u" }

/-- no block can be had -/
def lostServe (h : Trace host) : (c : HostCall) → c.Ans
  | .createFile path =>
    if (opens homeDirs path).isSome then .ok () else .error "Is a directory (os error 21)"
  | .requestBlob _ => .error (.network "connection reset")
  | c => (smallTransfer shortRevision).serve h c

theorem lostServe_honest (h : Trace host) (path : String)
    (hok : lostServe h (.createFile path) = .ok ()) : (opens homeDirs path).isSome = true := by
  by_contra hno
  have hrefused : lostServe h (.createFile path) = .error "Is a directory (os error 21)" := if_neg hno
  rw [hrefused] at hok
  cases hok

def lostRun : Trace host × Option (Except TaskFault Unit) :=
  exec lostServe [] (doDownload shortCrates smallClient notesTask).run

/-- the run has failed with an empty file in place of the local copy -/
def leavesEmpty (run : Trace host × Option (Except TaskFault Unit)) : Bool :=
  match run.2 with
  | some (.error (.failed _)) => destination run.1 = some ("/home/u/notes", [])
  | _ => false

set_option maxRecDepth 4000 in
theorem lostRun_leaves : leavesEmpty lostRun = true := by decide +kernel

theorem leavesEmpty_spec {run : Trace host × Option (Except TaskFault Unit)}
    (h : leavesEmpty run = true) : ∃ msg, run.2 = some (.error (.failed msg)) ∧
      destination run.1 = some ("/home/u/notes", []) := by
  unfold leavesEmpty at h
  split at h
  · next msg hfailed => exact ⟨msg, hfailed, of_decide_eq_true h⟩
  · cases h

/-- the file held three bytes -/
def localCopy : Contents homeDirs :=
  fun (d : Nat) x => if d = 2 ∧ x = "notes" then some [1, 2, 3] else none

/-- the download fails at its first block, and the local copy is gone -/
theorem lostCopy_emptied : ∃ tr msg,
    exec lostServe [] (doDownload shortCrates smallClient notesTask).run =
      (tr, some (.error (.failed msg))) ∧
    opens homeDirs notesTask.destPath = some ((2 : Nat), "notes") ∧
    localCopy (2 : Nat) "notes" = some [1, 2, 3] ∧
    (diskAfter localCopy tr).content (2 : Nat) "notes" = some [] := by
  obtain ⟨msg, hfailed, hdest⟩ := leavesEmpty_spec lostRun_leaves
  have hexec : exec lostServe [] (doDownload shortCrates smallClient notesTask).run =
      (lostRun.1, some (.error (.failed msg))) := Prod.ext rfl hfailed
  have hplace : opens homeDirs notesTask.destPath = some ((2 : Nat), "notes") := rfl
  refine ⟨lostRun.1, msg, hexec, hplace, rfl, ?_⟩
  rcases failedDownload_leaves localCopy lostServe_honest hexec hplace with ⟨_, bs, hbs, hleft⟩ | ⟨hno, _⟩
  · rw [hdest] at hbs
    cases hbs
    exact hleft
  · rw [doDownload_unopened hno hexec] at hdest
    cases hdest

/-- the same download, cancelled before it begins -/
def cancelledServe (h : Trace host) : (c : HostCall) → c.Ans
  | .isCancelled _ => true
  | c => lostServe h c

/-- leaves the local copy alone -/
theorem failedDownload_restores_cancelled : ∃ tr msg,
    exec cancelledServe [] (doDownload shortCrates smallClient notesTask).run =
      (tr, some (.error (.failed msg))) ∧
    ∀ files : Contents homeDirs, Restored files notesTask.destPath tr := by
  have hexec : exec cancelledServe [] (doDownload shortCrates smallClient notesTask).run =
      ([⟨.isCancelled .transfer, true⟩],
        some (.error (.failed "download cancelled before start"))) := rfl
  have hhonest : ∀ h path, cancelledServe h (.createFile path) = .ok () →
      (opens homeDirs path).isSome = true := fun h path hok => lostServe_honest h path hok
  refine ⟨_, _, hexec, (failedDownload_restores hhonest hexec).1.mpr ?_⟩
  intro hopens
  exact absurd hopens.begins (show ¬ true = false by decide)

end ProtonDrive
