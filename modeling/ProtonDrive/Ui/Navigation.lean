import ProtonDrive.Ui.Isolation

/-!
# Moving through the remote folders

The folder that is to be listed stands in the pane before it is listed, and stays there if it cannot be.

* `remoteState`             the folder, the entries and the cursor of the remote pane;
* `descendRemote_failed`, `ascendRemote_failed`
                            what an action leaves that could not list its target;
* `Displays h p uid`        the entries of the pane are those of the folder `uid`;
* `OpensListed`             a listing that fails is of the folder that was current before, or of the root;
* `navigation_atomic`       when the actions leave the pane as it was, and the runs in which uploads go to the
                            folder that is displayed;
* `failedDescent_misleads`  a run in which one does not.
-/

set_option linter.unusedVariables false

namespace ProtonDrive
open Encoding Effects Sorting

/-! ## one action -/

namespace App

/-- the folder, the entries and the cursor of the remote pane -/
def remoteState (app : App) : Option NodeUid × List PaneEntry × Nat :=
  (app.panes.remotePane.remoteCwdUid, app.panes.remotePane.entries, app.panes.remotePane.cursor)

/-- the directory under the cursor of the remote pane -/
def remoteTarget (app : App) : Option NodeUid :=
  app.panes.remotePane.under.bind fun entry => if entry.isDir then entry.nodeUid else none

end App

section
variable {app app' : App} {t : Trace ui} {client : Option ClientRef} {p q : Pane}

/-- a pane that is not listed keeps all but its error -/
theorem Refreshed.unlisted (hrefreshed : Refreshed client p t q) (ht : t.any isListed = false) :
    q.remoteCwdUid = p.remoteCwdUid ∧ q.entries = p.entries ∧ q.cursor = p.cursor := by
  have hlists : ∀ {c uid e}, Lists c uid p e q → isListed e = false →
      q.remoteCwdUid = p.remoteCwdUid ∧ q.entries = p.entries ∧ q.cursor = p.cursor := by
    intro c uid e hl he
    rcases hl.listed with ⟨items, nodes, rfl, hnodes, _⟩ | ⟨_, msg, rfl⟩
    · have hlisted : isListed ⟨.folderChildren c uid, items⟩ = (allOk items).isSome := rfl
      rw [hlisted, hnodes] at he
      cases he
    · exact ⟨rfl, rfl, rfl⟩
  cases hrefreshed with
  | noClient _ => exact ⟨rfl, rfl, rfl⟩
  | noRoot msg _ _ => exact ⟨rfl, rfl, rfl⟩
  | root _ _ hl =>
    rw [List.any_cons, List.any_cons, Bool.or_eq_false_iff, Bool.or_eq_false_iff] at ht
    exact hlists hl ht.2.1
  | folder _ _ hl =>
    rw [List.any_cons, Bool.or_eq_false_iff] at ht
    exact hlists hl ht.1

theorem refreshRemote_failed (h : Runs (refreshRemote app) t (.done app'))
    (ht : t.any isListed = false) : app'.remoteState = app.remoteState := by
  obtain ⟨q, hq, hview⟩ := refreshRemote_refreshed h
  obtain ⟨huid, hentries, hcursor⟩ := hq.unlisted ht
  have hpane : app'.panes.remotePane = q := congrArg View.remotePane hview
  unfold App.remoteState
  rw [hpane, huid, hentries, hcursor]

theorem descendRemote_failed (h : Runs (descendRemote app) t (.done app'))
    (ht : t.any isListed = false) :
    app'.remoteState = match app.remoteTarget with
      | none => app.remoteState
      | some uid => (some uid, app.panes.remotePane.entries, 0) := by
  unfold descendRemote at h
  unfold App.remoteTarget
  cases hunder : app.panes.remotePane.under with
  | none =>
    rw [hunder] at h
    obtain ⟨rfl, rfl⟩ := pure_ui_done h
    rfl
  | some entry =>
    rw [hunder] at h
    rw [Option.bind_some]
    dsimp only at h
    by_cases hdir : entry.isDir = true
    · rw [if_pos hdir] at h ⊢
      cases huid : entry.nodeUid with
      | none =>
        rw [huid] at h
        obtain ⟨rfl, rfl⟩ := pure_ui_done h
        rfl
      | some uid =>
        rw [huid] at h
        exact refreshRemote_failed h ht
    · rw [if_neg hdir] at h ⊢
      obtain ⟨rfl, rfl⟩ := pure_ui_done h
      rfl

theorem ascendRemote_failed (h : Runs (ascendRemote app) t (.done app'))
    (ht : t.any isListed = false) :
    app'.remoteState = (none, app.panes.remotePane.entries, 0) := refreshRemote_failed h ht

/-- the folder and the cursor are the only parts that can have changed -/
theorem remoteState_eq {uid : Option NodeUid} :
    (uid, app.panes.remotePane.entries, 0) = app.remoteState ↔
      app.panes.remotePane.remoteCwdUid = uid ∧ app.panes.remotePane.cursor = 0 := by
  unfold App.remoteState
  simp only [Prod.mk.injEq, true_and]
  constructor
  · intro ⟨huid, hcursor⟩
    exact ⟨huid.symm, hcursor.symm⟩
  · intro ⟨huid, hcursor⟩
    exact ⟨huid.symm, hcursor.symm⟩

/-- a descent that could not be listed has changed nothing just if the pane was there already -/
theorem descendRemote_atomic_iff (h : Runs (descendRemote app) t (.done app'))
    (ht : t.any isListed = false) : app'.remoteState = app.remoteState ↔
      ∀ uid, app.remoteTarget = some uid →
        app.panes.remotePane.remoteCwdUid = some uid ∧ app.panes.remotePane.cursor = 0 := by
  rw [descendRemote_failed h ht]
  cases htarget : app.remoteTarget with
  | none => exact ⟨fun _ uid huid => (nomatch huid), fun _ => rfl⟩
  | some uid =>
    rw [remoteState_eq]
    constructor
    · intro hsame uid' huid'
      cases huid'
      exact hsame
    · intro hall
      exact hall uid rfl

theorem ascendRemote_atomic_iff (h : Runs (ascendRemote app) t (.done app'))
    (ht : t.any isListed = false) : app'.remoteState = app.remoteState ↔
      app.panes.remotePane.remoteCwdUid = none ∧ app.panes.remotePane.cursor = 0 := by
  rw [ascendRemote_failed h ht, remoteState_eq]

end

/-! ## what is displayed -/

def shownListing : Event ui → Option (NodeUid × List MaybeNode)
  | ⟨.folderChildren _ uid, items⟩ => (allOk items).map fun nodes => (uid, nodes)
  | _ => none

/-- the last listing that has not failed was of the folder `uid`, and its entries are in the pane -/
def Displays (h : Trace ui) (p : Pane) (uid : NodeUid) : Prop :=
  ∃ nodes, latest shownListing h = some (uid, nodes) ∧ plain p.entries = remoteListing nodes

/-- the folder of the remote pane is displayed, and uploads go there -/
structure App.UploadsHere (app : App) (h : Trace ui) : Prop where
  folder : ∀ uid, app.panes.remoteFolderUid = some uid → Displays h app.panes.remotePane uid
  uploads : ∀ i t app', Runs (App.step i app) t (.done app') → ∀ c localPath parent a,
    (⟨.spawnUpload c localPath parent, a⟩ : Event ui) ∈ t → Displays h app.panes.remotePane parent

/-- a listing that fails is of the folder that was current before, or of the root -/
def OpensListed (v : View) (t : Trace ui) : Prop :=
  ∀ c uid items, (⟨.folderChildren c uid, items⟩ : Event ui) ∈ t → allOk items = none →
    v.remotePane.remoteCwdUid = some uid ∨
      ∃ c node, (⟨.myFilesRoot c, .ok node⟩ : Event ui) ∈ t

/-- the entries are those of the last listing, and the folder is the one that was listed -/
structure View.Located (h : Trace ui) (v : View) : Prop where
  entries : ∀ uid nodes, latest shownListing h = some (uid, nodes) →
    plain v.remotePane.entries = remoteListing nodes
  folder : ∀ uid, v.remotePane.remoteCwdUid = some uid →
    ∃ nodes, latest shownListing h = some (uid, nodes)

section
variable {h t : Trace ui} {v v' : View} {p q : Pane}

theorem shown_of_not_listed {e : Event ui} (he : isListed e = false) : shownListing e = none := by
  obtain ⟨call, a⟩ := e
  cases call with
  | folderChildren c uid =>
    show (allOk a).map _ = none
    rw [Option.not_isSome_iff_eq_none.mp (Bool.eq_false_iff.mp he)]
    rfl
  | _ => rfl

theorem shown_quiet {e : Event ui} (he : isQuiet e = true) : shownListing e = none := by
  obtain ⟨call, a⟩ := e
  cases call with
  | folderChildren c uid => cases he
  | _ => rfl

/-- calls that list no folder -/
theorem View.Located.append (hv : v.Located h) (ht : ∀ e ∈ t, shownListing e = none) :
    v.Located (h ++ t) where
  entries uid nodes hlatest := by
    rw [latest_append_none ht] at hlatest
    exact hv.entries uid nodes hlatest
  folder uid huid := by
    rw [latest_append_none ht]
    exact hv.folder uid huid

theorem View.Located.quiet (hv : v.Located h) (ht : ∀ e ∈ t, isQuiet e = true) : v.Located (h ++ t) :=
  hv.append fun e he => shown_quiet (ht e he)

/-- a pane that has not been listed, at no folder or at the one it was at -/
theorem View.Located.unlisted (hv : v.Located h) (p : Pane) (client : Option ClientRef)
    (hentries : p.entries = v.remotePane.entries)
    (hfolder : ∀ uid, p.remoteCwdUid = some uid → v.remotePane.remoteCwdUid = some uid) :
    { v with remotePane := p, client : View }.Located h where
  entries uid nodes hlatest := by
    show plain p.entries = _
    rw [hentries]
    exact hv.entries uid nodes hlatest
  folder uid huid := hv.folder uid (hfolder uid huid)

/-- a pane that is listed -/
theorem located_listed {c : ClientRef} {uid : NodeUid} {items : ChildItems} {nodes : List MaybeNode}
    (hnodes : allOk items = some nodes) (v : View) (client : Option ClientRef) (h : Trace ui) :
    { v with remotePane := p.listed uid nodes, client : View }.Located
      (h ++ [⟨.folderChildren c uid, items⟩]) := by
  have hlatest : latest shownListing (h ++ [⟨.folderChildren c uid, items⟩]) = some (uid, nodes) := by
    rw [latest_concat]
    show ((allOk items).map _).or _ = _
    rw [hnodes]
    rfl
  constructor
  · intro uid' nodes' hlatest'
    rw [hlatest] at hlatest'
    cases hlatest'
    exact plain_remoteListing nodes
  · intro uid' huid'
    cases huid'
    exact ⟨nodes, hlatest⟩

/-- a listing of the remote pane: where it fails, the folder is the one that was current -/
theorem View.Located.refreshed (hv : v.Located h) {client : Option ClientRef}
    (hp : Aims v.remotePane p) (hnone : client = none → p.remoteCwdUid = none)
    (hkept : ∀ c uid items, t = [⟨.folderChildren c uid, items⟩] → p.remoteCwdUid = some uid →
      allOk items = none → v.remotePane.remoteCwdUid = some uid)
    (hrefreshed : Refreshed client p t q) :
    { v with remotePane := q, client : View }.Located (h ++ t) := by
  have hsame := hp.same.2
  cases hrefreshed with
  | noClient hc =>
    rw [List.append_nil]
    refine hv.unlisted p client hsame fun uid huid => ?_
    rw [hnone hc] at huid
    cases huid
  | @noRoot c e msg hc hroot =>
    have hunshown : ∀ e' ∈ [(⟨.myFilesRoot c, .error e⟩ : Event ui)], shownListing e' = none :=
      List.forall_mem_singleton.mpr rfl
    refine (hv.append hunshown).unlisted (p.failed msg) client hsame fun uid huid => ?_
    rw [show p.remoteCwdUid = some uid from huid] at hroot
    cases hroot
  | @root c node e _ hc hroot hl =>
    rcases hl.listed with ⟨items, nodes, rfl, hnodes, rfl⟩ | ⟨hfailed, msg, rfl⟩
    · rw [List.append_cons]
      exact located_listed hnodes v client _
    · have hunshown : ∀ e' ∈ [(⟨.myFilesRoot c, .ok node⟩ : Event ui), e], shownListing e' = none :=
        List.forall_mem_cons.mpr ⟨rfl, List.forall_mem_singleton.mpr (shown_of_not_listed hfailed)⟩
      refine (hv.append hunshown).unlisted (p.failed msg) client hsame fun uid huid => ?_
      rw [show p.remoteCwdUid = some uid from huid] at hroot
      cases hroot
  | @folder c uid e _ hc hcurrent hl =>
    rcases hl.listed with ⟨items, nodes, rfl, hnodes, rfl⟩ | ⟨hfailed, msg, rfl⟩
    · exact located_listed hnodes v client _
    · have hunshown : ∀ e' ∈ [e], shownListing e' = none :=
        List.forall_mem_singleton.mpr (shown_of_not_listed hfailed)
      refine (hv.append hunshown).unlisted (p.failed msg) client hsame fun uid' huid' => ?_
      obtain rfl : uid = uid' := Option.some.inj (hcurrent.symm.trans huid')
      obtain ⟨call, items⟩ := e
      obtain rfl : call = .folderChildren c uid := hl.call
      exact hkept c uid items rfl hcurrent
        (Option.not_isSome_iff_eq_none.mp (Bool.eq_false_iff.mp hfailed))

theorem Does.located (hdoes : Does v t v') (hv : v.Located h) (hopens : OpensListed v t)
    (hnone : v.client = none → v.remotePane.entries = [] ∧ v.remotePane.remoteCwdUid = none) :
    v'.Located (h ++ t) := by
  induction hdoes generalizing h with
  | rests ht hp hq =>
    have hquiet := hv.quiet fun e he => isIdle_quiet (ht e he)
    constructor
    · intro uid nodes hlatest
      show plain _ = _
      rw [hq.entries]
      exact hquiet.entries uid nodes hlatest
    · intro uid huid
      exact hquiet.folder uid (hq.remoteCwdUid.symm.trans huid)
  | reads p answer =>
    have hunshown : ∀ e ∈ [(⟨.readDir p.cwd, answer⟩ : Event ui)], shownListing e = none :=
      List.forall_mem_singleton.mpr rfl
    have hread := hv.append hunshown
    exact ⟨hread.entries, hread.folder⟩
  | @lists p t q hp hrefreshed =>
    refine hv.refreshed hp (fun hc => ?_) (fun c uid items htr huid hfailed => ?_) hrefreshed
    · exact hp.unlisted (hnone hc).1 (hnone hc).2
    · subst htr
      rcases hopens c uid items (List.mem_singleton_self _) hfailed with hsame | ⟨c', node, hroot⟩
      · exact hsame
      · cases List.mem_singleton.mp hroot
  | uploads localPath hc hparent => exact hv.append (List.forall_mem_singleton.mpr rfl)
  | downloads hc herror hentry hfile huid => exact hv.append (List.forall_mem_singleton.mpr rfl)
  | noClient creds msg ht =>
    have hlogin : ∀ e ∈ acceptance creds :: _, shownListing e = none :=
      List.forall_mem_cons.mpr ⟨rfl, fun e he => shown_quiet (ht.quiet (loginMade_quiet creds) e he)⟩
    exact (hv.append hlogin).unlisted (v.remotePane.failed msg) v.client rfl fun uid huid => huid
  | @newClient s userId keyPassword a t q creds hrefreshed =>
    have hlogin : ∀ e ∈ acceptance creds :: clientCalls (loginMade creds) s userId keyPassword a,
        shownListing e = none :=
      List.forall_mem_cons.mpr ⟨rfl, fun e he =>
        shown_quiet (clientCalls_quiet (loginMade_quiet creds) _ _ _ _ e he)⟩
    have hclient : some ({ session := s, account := a } : ClientRef) = none →
        v.remotePane.remoteCwdUid = none := nofun
    have hshown := (hv.append hlogin).refreshed .here hclient (fun c uid items _ huid _ => huid)
      hrefreshed
    rw [List.append_assoc] at hshown
    exact hshown
  | @idle e t v' he _ ih =>
    rw [List.append_cons]
    apply ih
    · exact hv.quiet (List.forall_mem_singleton.mpr (isIdle_quiet he))
    · intro c uid items hmem hfailed
      rcases hopens c uid items (List.mem_cons_of_mem _ hmem) hfailed with hsame | ⟨c', node, hroot⟩
      · exact .inl hsame
      · rcases List.mem_cons.mp hroot with rfl | hroot
        · cases he
        · exact .inr ⟨c', node, hroot⟩

end

/-! ## every run -/

section
variable {app app' : App} {h t : Trace ui}

theorem start_located (hrun : Runs App.start h (.done app)) : app.view.Located h := by
  obtain ⟨stored, dir, answer, t, rfl, hresumes⟩ := start_resumes hrun
  have hnew : (View.new (dir.getD "/") answer).Located
      [⟨.storedSession, stored⟩, ⟨.currentDir, dir⟩, ⟨.readDir (dir.getD "/"), answer⟩] :=
    ⟨nofun, nofun⟩
  generalize app.view = v at hresumes
  cases hresumes with
  | not => exact hnew
  | noClient msg ht =>
    exact (hnew.quiet (ht.quiet sessionResumed_quiet)).unlisted (Pane.failed _ msg) _ rfl
      fun uid huid => huid
  | @newClient s userId keyPassword a t q hrefreshed =>
    have hquiet := hnew.quiet (clientCalls_quiet sessionResumed_quiet s userId keyPassword a)
    have hclient : some ({ session := s, account := a } : ClientRef) = none →
        (View.new (dir.getD "/") answer).remotePane.remoteCwdUid = none := nofun
    have hshown := hquiet.refreshed .here hclient (fun c uid items _ huid _ => huid) hrefreshed
    rw [List.append_assoc] at hshown
    exact hshown

theorem AppReached.located (happ : AppReached (fun i app t => OpensListed app.view t) app h) :
    app.view.Located h := by
  have hboth : app.view.Coherent h ∧ app.view.Located h := by
    refine Reachable.invariant (I := fun h app => app.view.Coherent h ∧ app.view.Located h) happ ?_ ?_
    · intro app h hrun
      exact ⟨start_coherent hrun, start_located hrun⟩
    · intro i app app' h t hv hrun hopens
      obtain ⟨hcoherent, hlocated⟩ := hv
      have hdoes := App.step_does hrun
      exact ⟨hdoes.coherent hcoherent,
        hdoes.located hlocated hopens fun hnone => (hcoherent.noClient hnone).2⟩
  exact hboth.2

theorem View.Located.displays {v : View} (hv : v.Located h) {uid : NodeUid}
    (huid : v.remotePane.remoteCwdUid = some uid) : Displays h v.remotePane uid := by
  obtain ⟨nodes, hlatest⟩ := hv.folder uid huid
  exact ⟨nodes, hlatest, hv.entries uid nodes hlatest⟩

/-- an action that could not list its target leaves the pane as it was just if the pane was at the
target already, with the cursor in the first row; and in every run in which no listing of another
folder fails, uploads go to the folder that is displayed -/
theorem navigation_atomic (app : App) :
    (∀ t app', Runs (descendRemote app) t (.done app') → t.any isListed = false →
      (app'.remoteState = app.remoteState ↔ ∀ uid, app.remoteTarget = some uid →
        app.panes.remotePane.remoteCwdUid = some uid ∧ app.panes.remotePane.cursor = 0)) ∧
    (∀ t app', Runs (ascendRemote app) t (.done app') → t.any isListed = false →
      (app'.remoteState = app.remoteState ↔
        app.panes.remotePane.remoteCwdUid = none ∧ app.panes.remotePane.cursor = 0)) ∧
    ∀ h, AppReached (fun i app t => OpensListed app.view t) app h → app.UploadsHere h := by
  refine ⟨fun t app' hrun ht => descendRemote_atomic_iff hrun ht,
    fun t app' hrun ht => ascendRemote_atomic_iff hrun ht, fun h happ => ?_⟩
  constructor
  · intro uid huid
    exact happ.located.displays huid
  · intro i t app' hrun c localPath parent a he
    exact happ.located.displays ((App.step_does hrun).upload he)

end

/-! ## a folder that cannot be opened -/

/-- the root of `scene` can be listed, its folders only if `opens` -/
def lostScene (opens : Bool) (h : Trace ui) : (c : UiCall) → ui.Ans c
  | .readDir _ => .ok [.ok { fileName := "report", metadata := .ok { isDir := false, len := 1 } }]
  | .folderChildren c uid =>
    if opens = true ∨ uid = { volumeId := "v", nodeId := "root" } then scene h (.folderChildren c uid)
    else [.error (.network "connection reset")]
  | c => scene h c

/-- a login, and then the first folder is opened; the local pane has its cursor on a file -/
def openFirst : List Input :=
  [.readKey, .readKey, .checkAuth, .action .down, .action .togglePane, .action .enter]

def uploadOf : Event ui → Option NodeUid
  | ⟨.spawnUpload _ _ parent, _⟩ => some parent
  | _ => none

theorem uploadOf_some {e : Event ui} {parent : NodeUid} (h : uploadOf e = some parent) :
    ∃ c localPath, e = ⟨.spawnUpload c localPath parent, ()⟩ := by
  obtain ⟨call, a⟩ := e
  cases call <;> cases h
  exact ⟨_, _, rfl⟩

/-- an upload that is started now, with the folders it goes to -/
def uploadStep (opens : Bool) (x : App × Trace ui) : Trace ui × Option App :=
  exec (lostScene opens) x.2 (App.step (.action .upload) x.1)

/-- no listing fails -/
def listsOk : Event ui → Bool
  | ⟨.folderChildren _ _, items⟩ => (allOk items).isSome
  | _ => true

/-- an upload goes to the folder `docs`, and the folder `shown` was listed last -/
def uploadsWhile (opens : Bool) (shown : NodeUid) (x : App × Trace ui) : Bool :=
  (uploadStep opens x).1.filterMap uploadOf = [{ volumeId := "v", nodeId := "1" }] ∧
    (uploadStep opens x).2.isSome ∧ (latest shownListing x.2).map Prod.fst = some shown

theorem uploadsWhile_spec {opens : Bool} {shown : NodeUid} {app : App} {h : Trace ui}
    (hx : uploadsWhile opens shown (app, h) = true) :
    (∃ t app' c localPath, Runs (App.step (.action .upload) app) t (.done app') ∧
      (⟨.spawnUpload c localPath { volumeId := "v", nodeId := "1" }, ()⟩ : Event ui) ∈ t) ∧
    ∃ nodes, latest shownListing h = some (shown, nodes) := by
  obtain ⟨hupload, hdone, hshown⟩ := of_decide_eq_true hx
  obtain ⟨app', hrun⟩ := Option.isSome_iff_exists.mp hdone
  obtain ⟨e, he, hparent⟩ := List.mem_filterMap.mp (hupload ▸ List.mem_singleton_self _)
  obtain ⟨c, localPath, rfl⟩ := uploadOf_some hparent
  obtain ⟨⟨uid, nodes⟩, hlatest, rfl⟩ := Option.map_eq_some_iff.mp hshown
  exact ⟨⟨_, app', c, localPath, exec_runs (lostScene opens) h _ app' hrun, he⟩, nodes, hlatest⟩

/-- the folder `docs` cannot be opened, the root is still displayed, and an upload goes to `docs` -/
theorem failedDescent_misleads : ∃ app h, AppReached (fun _ _ _ => True) app h ∧
    (∃ nodes, latest shownListing h = some ({ volumeId := "v", nodeId := "root" }, nodes)) ∧
    (∃ t app' c localPath, Runs (App.step (.action .upload) app) t (.done app') ∧
      (⟨.spawnUpload c localPath { volumeId := "v", nodeId := "1" }, ()⟩ : Event ui) ∈ t) ∧
    ¬ app.UploadsHere h := by
  have hafter : (play (lostScene false) (fun _ _ _ => true) App.start App.step openFirst).any
      (uploadsWhile false { volumeId := "v", nodeId := "root" }) = true := by decide +kernel
  obtain ⟨⟨app, h⟩, hplay, hx⟩ := (Option.any_eq_true _ _).mp hafter
  obtain ⟨⟨t, app', c, localPath, hrun, he⟩, nodes, hlatest⟩ := uploadsWhile_spec hx
  refine ⟨app, h, (play_reachable hplay).mono fun _ _ _ _ => trivial, ⟨nodes, hlatest⟩,
    ⟨t, app', c, localPath, hrun, he⟩, ?_⟩
  intro huploads
  obtain ⟨nodes', hlatest', _⟩ := huploads.uploads _ t app' hrun c localPath _ () he
  rw [hlatest] at hlatest'
  exact absurd hlatest' (by simp)

/-- a folder that can be opened is displayed, and an upload goes there -/
theorem navigation_atomic_openFirst : ∃ app h t app' c localPath,
    Runs (App.step (.action .upload) app) t (.done app') ∧
    (⟨.spawnUpload c localPath { volumeId := "v", nodeId := "1" }, ()⟩ : Event ui) ∈ t ∧
    Displays h app.panes.remotePane { volumeId := "v", nodeId := "1" } := by
  have hafter : (play (lostScene true) (fun _ _ t => t.all listsOk) App.start App.step openFirst).any
      (uploadsWhile true { volumeId := "v", nodeId := "1" }) = true := by decide +kernel
  obtain ⟨⟨app, h⟩, hplay, hx⟩ := (Option.any_eq_true _ _).mp hafter
  obtain ⟨⟨t, app', c, localPath, hrun, he⟩, _⟩ := uploadsWhile_spec hx
  have happ : AppReached (fun i app t => OpensListed app.view t) app h := by
    refine (play_reachable hplay).mono fun i app t hall c uid items hmem hfailed => ?_
    have hok : (allOk items).isSome = true := List.all_eq_true.mp hall _ hmem
    rw [hfailed] at hok
    cases hok
  have huploads := (navigation_atomic app).2.2 h happ
  exact ⟨app, h, t, app', c, localPath, hrun, he, huploads.uploads _ t app' hrun c localPath _ () he⟩

end ProtonDrive
