import ProtonDrive.Lib.Results
import ProtonDrive.Ui.Steps

/-!
# What the panes show

A pane without an error shows the last listing of its folder (`LocalShows`, `RemoteShows`): the cursor is
in one of its rows, and up to the selected flags its entries are those of the listing, in order.  For
the remote pane the listing is the last one the client has made of the folder.
-/

set_option linter.unusedVariables false

namespace ProtonDrive
open Encoding Effects Sorting

/-! ## listings -/

/-- the nodes that were listed, if this is a listing of the folder that has not failed -/
def folderListing (c : ClientRef) (uid : NodeUid) : Event ui → Option (List MaybeNode)
  | ⟨.folderChildren c' uid', items⟩ => if c' = c ∧ uid' = uid then allOk items else none
  | _ => none

def dirListing (path : String) : Event ui → Option (List PaneEntry)
  | ⟨.readDir path', answer⟩ => if path' = path then (listDir path' answer).toOption else none
  | _ => none

/-- the entries are those of the last listing of the directory -/
def LocalShows (h : Trace ui) (p : Pane) : Prop :=
  p.error = none → p.Pointed ∧ p.entries.Pairwise (fun a b => parentFirst a b = true) ∧
    ∃ entries, latest (dirListing p.cwd) h = some entries ∧
      plain p.entries = sortBy parentFirst entries

/-- the entries are those of the last listing that the client has made of the folder -/
def RemoteShows (h : Trace ui) (client : Option ClientRef) (p : Pane) : Prop :=
  p.error = none → p.Pointed ∧ p.entries.Pairwise (fun a b => dirsFirst a b = true) ∧
    ∃ c uid nodes, client = some c ∧ p.remoteCwdUid = some uid ∧
      latest (folderListing c uid) h = some nodes ∧ plain p.entries = remoteListing nodes

structure View.Coherent (h : Trace ui) (v : View) : Prop where
  onLocal : LocalShows h v.localPane
  onRemote : RemoteShows h v.client v.remotePane
  /-- without a client nothing was ever listed -/
  noClient : v.client = none → v.remotePane.error ≠ none ∧ v.remotePane.entries = [] ∧
    v.remotePane.remoteCwdUid = none

/-! ## orders -/

theorem byName_compares : Compares byName where
  total a b := by
    unfold byName
    simp only [decide_eq_true_iff]
    exact le_total a.name b.name
  trans {a b c} hab hbc := by
    unfold byName at hab hbc ⊢
    simp only [decide_eq_true_iff] at hab hbc ⊢
    exact le_trans hab hbc

theorem dirsFirst_compares : Compares dirsFirst := byName_compares.firstBy _

theorem parentFirst_compares : Compares parentFirst := dirsFirst_compares.firstBy _

/-- the orders do not look at the selected flags -/
theorem dirsFirst_plain (entries : List PaneEntry) :
    (plain entries).Pairwise (fun a b => dirsFirst a b = true) ↔
      entries.Pairwise fun a b => dirsFirst a b = true := List.pairwise_map

theorem parentFirst_plain (entries : List PaneEntry) :
    (plain entries).Pairwise (fun a b => parentFirst a b = true) ↔
      entries.Pairwise fun a b => parentFirst a b = true := List.pairwise_map

/-! ## entries of a listing are not selected -/

theorem plain_of_unselected {entries : List PaneEntry} (h : ∀ e ∈ entries, e.selected = false) :
    plain entries = entries := by
  unfold plain
  have hmap : entries.map (fun e => { e with selected := false }) = entries.map id := by
    apply List.map_congr_left
    intro e he
    have hflag := h e he
    cases e
    cases hflag
    rfl
  rw [hmap, List.map_id]

/-- the entry of a node names it, and is not selected -/
theorem remoteEntry_some {node : MaybeNode} {e : PaneEntry} (h : remoteEntry node = some e) :
    e.nodeUid = some node.uid ∧ e.selected = false := by
  cases node with
  | node n =>
    unfold remoteEntry at h
    by_cases htrashed : n.trashed = true
    · simp only [htrashed] at h
      cases h
    · simp only [htrashed] at h
      cases h
      exact ⟨rfl, rfl⟩
  | degraded uid reason =>
    cases h
    exact ⟨rfl, rfl⟩
  | missing uid => cases h

theorem plain_remoteListing (nodes : List MaybeNode) :
    plain (remoteListing nodes) = remoteListing nodes := by
  apply plain_of_unselected
  intro e he
  obtain ⟨node, _, hnode⟩ := List.mem_filterMap.mp (mem_sortBy.mp he)
  exact (remoteEntry_some hnode).2

theorem visibleEntries_unselected {items : List (Except String DirItem)} {entries : List PaneEntry}
    (h : visibleEntries items = .ok entries) : ∀ e ∈ entries, e.selected = false := by
  induction items generalizing entries with
  | nil =>
    cases h
    exact List.forall_mem_nil _
  | cons item rest ih =>
    obtain ⟨item, rfl, h₁⟩ := Results.bind_ok.mp h
    obtain ⟨entry, _, h₂⟩ := Results.bind_ok.mp h₁
    obtain ⟨out, hout, h₃⟩ := Results.bind_ok.mp h₂
    have hrest := ih hout
    by_cases hidden : item.fileName.toList.head? = some '.'
    · rw [if_pos hidden] at h₃
      cases h₃
      exact hrest
    · rw [if_neg hidden] at h₃
      cases h₃
      intro e he
      rcases List.mem_cons.mp he with rfl | he
      · rfl
      · exact hrest e he

theorem listDir_unselected {path : String} {answer : DirItems} {entries : List PaneEntry}
    (h : listDir path answer = .ok entries) : ∀ e ∈ entries, e.selected = false := by
  obtain ⟨items, _, h₁⟩ := Results.bind_ok.mp h
  obtain ⟨out, hout, h₂⟩ := Results.bind_ok.mp h₁
  have hrest := visibleEntries_unselected hout
  by_cases hparent : (pathParent path).isSome = true
  · rw [if_pos hparent] at h₂
    cases h₂
    intro e he
    rcases List.mem_cons.mp he with rfl | he
    · rfl
    · exact hrest e he
  · rw [if_neg hparent] at h₂
    cases h₂
    exact hrest

/-! ## each change to a pane -/

section
variable {h t : Trace ui} {p p' : Pane} {client : Option ClientRef}

theorem Pane.Rests.localShows (hp : p.Rests p') (hshows : LocalShows h p) : LocalShows h p' := by
  intro herror
  rw [hp.error] at herror
  obtain ⟨hpointed, hsorted, entries, hlatest, hplain⟩ := hshows herror
  refine ⟨hp.pointed hpointed, ?_, entries, ?_, ?_⟩
  · rw [← parentFirst_plain, hp.entries, parentFirst_plain]
    exact hsorted
  · rw [hp.cwd]
    exact hlatest
  · rw [hp.entries]
    exact hplain

theorem Pane.Rests.remoteShows (hp : p.Rests p') (hshows : RemoteShows h client p) :
    RemoteShows h client p' := by
  intro herror
  rw [hp.error] at herror
  obtain ⟨hpointed, hsorted, c, uid, nodes, hclient, huid, hlatest, hplain⟩ := hshows herror
  refine ⟨hp.pointed hpointed, ?_, c, uid, nodes, hclient, ?_, hlatest, ?_⟩
  · rw [← dirsFirst_plain, hp.entries, dirsFirst_plain]
    exact hsorted
  · rw [hp.remoteCwdUid]
    exact huid
  · rw [hp.entries]
    exact hplain

/-- calls that list no directory -/
theorem LocalShows.append (hshows : LocalShows h p) (ht : ∀ e ∈ t, ∀ path, dirListing path e = none) :
    LocalShows (h ++ t) p := by
  intro herror
  obtain ⟨hpointed, hsorted, entries, hlatest, hplain⟩ := hshows herror
  refine ⟨hpointed, hsorted, entries, ?_, hplain⟩
  rw [latest_append_none fun e he => ht e he p.cwd]
  exact hlatest

/-- calls that list no folder -/
theorem RemoteShows.append (hshows : RemoteShows h client p)
    (ht : ∀ e ∈ t, ∀ c uid, folderListing c uid e = none) : RemoteShows (h ++ t) client p := by
  intro herror
  obtain ⟨hpointed, hsorted, c, uid, nodes, hclient, huid, hlatest, hplain⟩ := hshows herror
  refine ⟨hpointed, hsorted, c, uid, nodes, hclient, huid, ?_, hplain⟩
  rw [latest_append_none fun e he => ht e he c uid]
  exact hlatest

theorem remoteShows_failed (msg : String) : RemoteShows h client (p.failed msg) := nofun

theorem loaded_ok {answer : DirItems} {entries : List PaneEntry}
    (hdir : listDir p.cwd answer = .ok entries) : p.loaded answer = { p with
      error := none, entries := sortBy parentFirst entries,
      cursor := if p.cursor ≥ (sortBy parentFirst entries).length then
        (sortBy parentFirst entries).length - 1 else p.cursor } := by
  unfold Pane.loaded
  rw [hdir]

theorem loaded_pointed {answer : DirItems} {entries : List PaneEntry}
    (hdir : listDir p.cwd answer = .ok entries) : (p.loaded answer).Pointed := by
  rw [loaded_ok hdir]
  by_cases hempty : sortBy parentFirst entries = []
  · right
    refine ⟨hempty, ?_⟩
    show (if p.cursor ≥ (sortBy parentFirst entries).length then _ else p.cursor) = 0
    rw [hempty, List.length_nil, if_pos (Nat.zero_le _)]
  · left
    have hpos := List.length_pos_of_ne_nil hempty
    show (if p.cursor ≥ (sortBy parentFirst entries).length then _ else p.cursor) <
      (sortBy parentFirst entries).length
    by_cases hcursor : p.cursor ≥ (sortBy parentFirst entries).length
    · rw [if_pos hcursor]
      omega
    · rw [if_neg hcursor]
      omega

theorem localShows_loaded (p : Pane) (answer : DirItems) :
    LocalShows (h ++ [⟨.readDir p.cwd, answer⟩]) (p.loaded answer) := by
  cases hdir : listDir p.cwd answer with
  | error e =>
    unfold Pane.loaded
    rw [hdir]
    exact nofun
  | ok entries =>
    intro _
    have hpointed := loaded_pointed hdir
    have hplain : plain (sortBy parentFirst entries) = sortBy parentFirst entries := by
      apply plain_of_unselected
      intro e he
      exact listDir_unselected hdir e (mem_sortBy.mp he)
    rw [loaded_ok hdir] at hpointed ⊢
    refine ⟨hpointed, sortBy_pairwise parentFirst_compares entries, entries, ?_, hplain⟩
    show latest (dirListing p.cwd) _ = some entries
    rw [latest_concat]
    show (if p.cwd = p.cwd then (listDir p.cwd answer).toOption else none).or _ = some entries
    rw [if_pos rfl, hdir]
    rfl

/-- a listing of the remote pane leaves an error, or is what is shown -/
theorem Lists.remoteShows {c : ClientRef} {uid : NodeUid} {e : Event ui} (hlists : Lists c uid p e p') :
    RemoteShows (h ++ [e]) (some c) p' := by
  cases hlists with
  | error msg _ => exact remoteShows_failed msg
  | @ok items nodes hnodes =>
    intro _
    have hsorted := sortBy_pairwise dirsFirst_compares (nodes.filterMap remoteEntry)
    refine ⟨?_, hsorted, c, uid, nodes, rfl, rfl, ?_, plain_remoteListing nodes⟩
    · by_cases hempty : remoteListing nodes = []
      · exact .inr ⟨hempty, rfl⟩
      · exact .inl (List.length_pos_of_ne_nil hempty)
    · rw [latest_concat]
      show (if c = c ∧ uid = uid then allOk items else none).or _ = some nodes
      rw [if_pos ⟨rfl, rfl⟩, hnodes]
      rfl

/-- without a client nothing was ever shown -/
theorem Refreshed.remoteShows (hrefreshed : Refreshed client p t p')
    (hnone : client = none → p.error ≠ none) : RemoteShows (h ++ t) client p' := by
  cases hrefreshed with
  | noClient hclient => exact fun herror => absurd herror (hnone hclient)
  | noRoot msg _ _ => exact remoteShows_failed msg
  | root hc _ hlists =>
    rw [hc, List.append_cons]
    exact hlists.remoteShows
  | folder hc _ hlists =>
    rw [hc]
    exact hlists.remoteShows

end

/-! ## each step -/

/-- the event is no listing -/
structure Unlisted (e : Event ui) : Prop where
  dir : ∀ path, dirListing path e = none
  folder : ∀ c uid, folderListing c uid e = none

theorem unlisted_quiet {e : Event ui} (he : isQuiet e = true) : Unlisted e := by
  obtain ⟨c, a⟩ := e
  constructor <;> intros <;> cases c <;> first | rfl | cases he

theorem isIdle_quiet {e : Event ui} (he : isIdle e = true) : isQuiet e = true := by
  obtain ⟨c, a⟩ := e
  cases c with
  | pollKey => rfl
  | spawnLogin email password => rfl
  | authFinished =>
    cases a with
    | none => rfl
    | some outcome =>
      cases outcome with
      | accepted creds => cases he
      | refused msg => rfl
      | panicked msg => rfl
  | _ => cases he

/-- where the pane aims before it is listed, its error and its entries are what they were -/
theorem Aims.same {p q : Pane} (h : Aims p q) : q.error = p.error ∧ q.entries = p.entries := by
  cases h <;> exact ⟨rfl, rfl⟩

/-- a pane without entries has no directory to aim at -/
theorem Aims.unlisted {p q : Pane} (h : Aims p q) (hentries : p.entries = [])
    (huid : p.remoteCwdUid = none) : q.remoteCwdUid = none := by
  cases h with
  | here => exact huid
  | root => rfl
  | folder hentry _ _ =>
    unfold Pane.under at hentry
    rw [hentries] at hentry
    cases hentry

section
variable {h t : Trace ui} {v v' : View} {make : Except String SessionRef → Event ui}

/-- the calls of a listing list no directory of the local file system -/
theorem Refreshed.dirListing {client : Option ClientRef} {p q : Pane}
    (hrefreshed : Refreshed client p t q) : ∀ e ∈ t, ∀ path, dirListing path e = none := by
  have hlists : ∀ {c uid e}, Lists c uid p e q → ∀ path, ProtonDrive.dirListing path e = none := by
    intro c uid e hl path
    cases hl <;> rfl
  cases hrefreshed with
  | noClient _ => exact List.forall_mem_nil _
  | noRoot msg _ _ => simp [ProtonDrive.dirListing]
  | root _ _ hl => simpa [ProtonDrive.dirListing] using hlists hl
  | folder _ _ hl => simpa using hlists hl

/-- its calls are listings with the client -/
theorem Refreshed.calls {client : Option ClientRef} {p q : Pane}
    (hrefreshed : Refreshed client p t q) : ∀ e ∈ t, ∃ c, client = some c ∧
      (e.call = .myFilesRoot c ∨ ∃ uid, e.call = .folderChildren c uid) := by
  have hlists : ∀ {c uid e}, Lists c uid p e q → e.call = .folderChildren c uid := by
    intro c uid e hl
    cases hl <;> rfl
  intro e he
  cases hrefreshed with
  | noClient _ => cases he
  | noRoot msg hc _ =>
    rw [List.mem_singleton.mp he]
    exact ⟨_, hc, .inl rfl⟩
  | root hc _ hl =>
    rcases List.mem_cons.mp he with rfl | he
    · exact ⟨_, hc, .inl rfl⟩
    · rw [List.mem_singleton.mp he]
      exact ⟨_, hc, .inr ⟨_, hlists hl⟩⟩
  | folder hc _ hl =>
    rw [List.mem_singleton.mp he]
    exact ⟨_, hc, .inr ⟨_, hlists hl⟩⟩

theorem NoClient.quiet (ht : NoClient make t) (hmake : ∀ r, isQuiet (make r) = true) :
    ∀ e ∈ t, isQuiet e = true := by
  intro e he
  cases ht with
  | noTransport error =>
    rw [List.mem_singleton.mp he]
    rfl
  | noSession error =>
    simp only [List.mem_cons, List.not_mem_nil, or_false] at he
    rcases he with rfl | rfl
    · rfl
    · exact hmake _
  | noAccount s userId keyPassword error =>
    simp only [List.mem_cons, List.not_mem_nil, or_false] at he
    rcases he with rfl | rfl | rfl
    · rfl
    · exact hmake _
    · rfl

theorem clientCalls_quiet (hmake : ∀ r, isQuiet (make r) = true) (s : SessionRef)
    (userId keyPassword : String) (a : Nat) :
    ∀ e ∈ clientCalls make s userId keyPassword a, isQuiet e = true := by
  intro e he
  simp only [clientCalls, List.mem_cons, List.not_mem_nil, or_false] at he
  rcases he with rfl | rfl | rfl
  · rfl
  · exact hmake _
  · rfl

theorem loginMade_quiet (creds : LoginCredentials) (r : Except String SessionRef) :
    isQuiet (loginMade creds r) = true := rfl

theorem sessionResumed_quiet (r : Except String SessionRef) : isQuiet (sessionResumed r) = true := rfl

theorem unlisted_acceptance (creds : LoginCredentials) : Unlisted (acceptance creds) :=
  ⟨fun _ => rfl, fun _ _ => rfl⟩

theorem View.Coherent.append (hv : v.Coherent h) (ht : ∀ e ∈ t, Unlisted e) :
    v.Coherent (h ++ t) where
  onLocal := hv.onLocal.append fun e he => (ht e he).dir
  onRemote := hv.onRemote.append fun e he => (ht e he).folder
  noClient := hv.noClient

theorem View.Coherent.quiet (hv : v.Coherent h) (ht : ∀ e ∈ t, isQuiet e = true) :
    v.Coherent (h ++ t) := hv.append fun e he => unlisted_quiet (ht e he)

/-- an error in the remote pane -/
theorem View.Coherent.failed (hv : v.Coherent h) (msg : String) :
    { v with remotePane := v.remotePane.failed msg : View }.Coherent h where
  onLocal := hv.onLocal
  onRemote := remoteShows_failed msg
  noClient hnone := ⟨nofun, (hv.noClient hnone).2⟩

/-- a remote pane that is listed, perhaps with another client -/
theorem View.Coherent.refreshed (hv : v.Coherent h) {client : Option ClientRef} {p q : Pane}
    (hp : Aims v.remotePane p) (hclient : client = none → v.client = none)
    (hrefreshed : Refreshed client p t q) :
    { v with remotePane := q, client : View }.Coherent (h ++ t) where
  onLocal := hv.onLocal.append hrefreshed.dirListing
  onRemote := by
    apply hrefreshed.remoteShows
    intro hnone
    rw [hp.same.1]
    exact (hv.noClient (hclient hnone)).1
  noClient := by
    intro hnone
    have hnone : client = none := hnone
    obtain ⟨herror, hentries, huid⟩ := hv.noClient (hclient hnone)
    rw [hnone] at hrefreshed
    cases hrefreshed with
    | noClient _ =>
      show p.error ≠ none ∧ p.entries = [] ∧ p.remoteCwdUid = none
      rw [hp.same.1, hp.same.2]
      exact ⟨herror, hentries, hp.unlisted hentries huid⟩
    | noRoot _ hc _ => cases hc
    | root hc _ _ => cases hc
    | folder hc _ _ => cases hc

theorem Does.coherent (hdoes : Does v t v') (hv : v.Coherent h) : v'.Coherent (h ++ t) := by
  induction hdoes generalizing h with
  | rests ht hp hq =>
    have hquiet := hv.quiet fun e he => isIdle_quiet (ht e he)
    refine ⟨hp.localShows hquiet.onLocal, hq.remoteShows hquiet.onRemote, fun hnone => ?_⟩
    obtain ⟨herror, hentries, huid⟩ := hv.noClient hnone
    have hplain := hq.entries
    rw [hentries] at hplain
    refine ⟨?_, List.map_eq_nil_iff.mp hplain, ?_⟩
    · show _ ≠ none
      rw [hq.error]
      exact herror
    · show _ = none
      rw [hq.remoteCwdUid]
      exact huid
  | reads p answer =>
    refine ⟨localShows_loaded p answer, hv.onRemote.append ?_, hv.noClient⟩
    intro e he c uid
    rw [List.mem_singleton.mp he]
    rfl
  | lists hp hrefreshed => exact hv.refreshed hp id hrefreshed
  | uploads localPath hc hparent =>
    apply hv.append
    intro e he
    rw [List.mem_singleton.mp he]
    exact ⟨fun _ => rfl, fun _ _ => rfl⟩
  | downloads hc herror hentry hfile huid =>
    apply hv.append
    intro e he
    rw [List.mem_singleton.mp he]
    exact ⟨fun _ => rfl, fun _ _ => rfl⟩
  | noClient creds msg ht =>
    apply View.Coherent.failed
    apply hv.append
    intro e he
    rcases List.mem_cons.mp he with rfl | he
    · exact unlisted_acceptance creds
    · exact unlisted_quiet (ht.quiet (loginMade_quiet creds) e he)
  | newClient creds hrefreshed =>
    rw [← List.cons_append, ← List.append_assoc]
    refine View.Coherent.refreshed (hv.append ?_) .here nofun hrefreshed
    intro e he
    rcases List.mem_cons.mp he with rfl | he
    · exact unlisted_acceptance creds
    · exact unlisted_quiet (clientCalls_quiet (loginMade_quiet creds) _ _ _ _ e he)
  | idle he _ ih =>
    rw [List.append_cons]
    apply ih
    apply hv.quiet
    intro e' he'
    rw [List.mem_singleton.mp he']
    exact isIdle_quiet he

end

/-! ## every run -/

section
variable {C : Input → App → Trace ui → Prop} {app app' : App} {h t : Trace ui}

theorem start_coherent (hrun : Runs App.start h (.done app)) : app.view.Coherent h := by
  obtain ⟨stored, dir, answer, t, rfl, hresumes⟩ := start_resumes hrun
  have hnew : (View.new (dir.getD "/") answer).Coherent
      [⟨.storedSession, stored⟩, ⟨.currentDir, dir⟩, ⟨.readDir (dir.getD "/"), answer⟩] :=
    ⟨localShows_loaded (h := [⟨.storedSession, stored⟩, ⟨.currentDir, dir⟩]) _ answer, nofun,
      fun _ => ⟨nofun, rfl, rfl⟩⟩
  generalize hv : app.view = v at hresumes
  cases hresumes with
  | not => exact hnew
  | noClient msg ht => exact (hnew.quiet (ht.quiet sessionResumed_quiet)).failed msg
  | @newClient s userId keyPassword a t q hrefreshed =>
    have hquiet := hnew.quiet (clientCalls_quiet sessionResumed_quiet s userId keyPassword a)
    have hclient : some ({ session := s, account := a } : ClientRef) = none →
        (View.new (dir.getD "/") answer).client = none := nofun
    have hshown := hquiet.refreshed .here hclient hrefreshed
    rw [List.append_assoc] at hshown
    exact hshown

theorem AppReached.coherent (happ : AppReached C app h) : app.view.Coherent h := by
  refine Reachable.invariant (I := fun h app => app.view.Coherent h) happ ?_ ?_
  · intro app h hrun
    exact start_coherent hrun
  · intro i app app' h t hv hrun _
    exact (App.step_does hrun).coherent hv

def isSpawn : Event ui → Bool
  | ⟨.spawnUpload _ _ _, _⟩ => true
  | ⟨.spawnDownload _ _ _ _, _⟩ => true
  | _ => false

/-- a transfer that is started: an upload to the folder of the remote pane, or a download of the file
under the cursor of a pane without an error, into the directory of the other pane -/
inductive Spawns (v : View) : Event ui → Prop
  | upload {c parent} (localPath : String) (hc : v.client = some c)
      (hparent : v.remotePane.remoteCwdUid = some parent) :
      Spawns v ⟨.spawnUpload c localPath parent, ()⟩
  | download {c entry uid} (hc : v.client = some c) (herror : v.remotePane.error = none)
      (hentry : v.remotePane.under = some entry) (hfile : entry.isDir = false)
      (huid : entry.nodeUid = some uid) :
      Spawns v ⟨.spawnDownload c uid entry.name v.localPane.cwd, ()⟩

theorem Does.spawns {v v' : View} (hdoes : Does v t v') {e : Event ui} (he : e ∈ t)
    (hspawn : isSpawn e = true) : Spawns v e := by
  have hquiet : isQuiet e = false := by
    obtain ⟨call, a⟩ := e
    cases call with
    | spawnUpload _ _ _ => rfl
    | spawnDownload _ _ _ _ => rfl
    | _ => cases hspawn
  have hloud : ∀ {t' : Trace ui}, (∀ e ∈ t', isQuiet e = true) → e ∉ t' := by
    intro t' hall hmem
    rw [hall e hmem] at hquiet
    cases hquiet
  have hlisting : ∀ {client p t' q}, Refreshed client p t' q → e ∉ t' := by
    intro client p t' q hrefreshed hmem
    obtain ⟨call, a⟩ := e
    obtain ⟨c', _, hcall | ⟨uid', hcall⟩⟩ := hrefreshed.calls _ hmem
    · obtain rfl : call = .myFilesRoot c' := hcall
      cases hspawn
    · obtain rfl : call = .folderChildren c' uid' := hcall
      cases hspawn
  induction hdoes with
  | rests ht _ _ => exact absurd he (hloud fun e he => isIdle_quiet (ht e he))
  | reads p answer =>
    cases List.mem_singleton.mp he
    cases hspawn
  | lists _ hrefreshed => exact absurd he (hlisting hrefreshed)
  | uploads localPath hc hparent =>
    cases List.mem_singleton.mp he
    exact .upload localPath hc hparent
  | downloads hc herror hentry hfile huid =>
    cases List.mem_singleton.mp he
    exact .download hc herror hentry hfile huid
  | noClient creds msg ht =>
    rcases List.mem_cons.mp he with rfl | he
    · cases hspawn
    · exact absurd he (hloud (ht.quiet (loginMade_quiet creds)))
  | newClient creds hrefreshed =>
    rcases List.mem_cons.mp he with rfl | he
    · cases hspawn
    · rcases List.mem_append.mp he with he | he
      · exact absurd he (hloud (clientCalls_quiet (loginMade_quiet creds) _ _ _ _))
      · exact absurd he (hlisting hrefreshed)
  | idle hidle _ ih =>
    rcases List.mem_cons.mp he with rfl | he
    · rw [isIdle_quiet hidle] at hquiet
      cases hquiet
    · exact ih he

theorem Does.download {v v' : View} (hdoes : Does v t v') {c : ClientRef} {uid : NodeUid}
    {name dest : String} {a : Unit} (he : (⟨.spawnDownload c uid name dest, a⟩ : Event ui) ∈ t) :
    dest = v.localPane.cwd ∧ v.client = some c ∧ v.remotePane.error = none ∧
      ∃ entry, v.remotePane.under = some entry ∧ entry.isDir = false ∧
        entry.nodeUid = some uid ∧ entry.name = name := by
  cases hdoes.spawns he rfl with
  | download hc herror hentry hfile huid => exact ⟨rfl, hc, herror, _, hentry, hfile, huid, rfl⟩

theorem Does.upload {v v' : View} (hdoes : Does v t v') {c : ClientRef} {localPath : String}
    {parent : NodeUid} {a : Unit} (he : (⟨.spawnUpload c localPath parent, a⟩ : Event ui) ∈ t) :
    v.remotePane.remoteCwdUid = some parent := by
  cases hdoes.spawns he rfl with
  | upload _ _ hparent => exact hparent

/-- in every state that can be reached a pane without an error shows the last listing of its folder,
and a step that starts a download does so for the file under the cursor -/
theorem panes_coherent (happ : AppReached C app h) : app.view.Coherent h ∧
    ∀ i t app', Runs (App.step i app) t (.done app') → ∀ c uid name dest a,
      (⟨.spawnDownload c uid name dest, a⟩ : Event ui) ∈ t →
        app.client = some c ∧ app.panes.remotePane.error = none ∧
          ∃ entry, app.panes.remotePane.under = some entry ∧ entry.isDir = false ∧
            entry.nodeUid = some uid ∧ entry.name = name := by
  refine ⟨happ.coherent, ?_⟩
  intro i t app' hrun c uid name dest a he
  exact ((App.step_does hrun).download he).2

end

/-! ## two logins -/

def sceneNode (id name : String) (nodeType : NodeType) : MaybeNode :=
  .node { uid := { volumeId := "v", nodeId := id }, parent := none, name, nodeType, mediaType := none,
          sizeBytes := none, createdAt := 0, modifiedAt := 0, trashed := false, author := .anonymous,
          activeRevision := none }

def sceneCreds (username : String) : LoginCredentials :=
  { uid := "uid", accessToken := "access", refreshToken := "refresh", keyPassword := "key",
    username, userId := "user" }

def isLoginSession : Event ui → Bool
  | ⟨.loginSession _, _⟩ => true
  | _ => false

/-- every login is accepted, and the first of them leads to a session -/
def scene (h : Trace ui) : (c : UiCall) → ui.Ans c
  | .storedSession => false
  | .currentDir => some "/home"
  | .readDir _ => .ok []
  | .newTransport => .ok ()
  | .resumeSession => .error "no session"
  | .loginSession creds =>
    if h.any isLoginSession then .error "io: No space left on device (os error 28)"
    else .ok { id := 1, keyPassword := creds.keyPassword }
  | .bootstrapAccount _ _ _ => .ok 1
  | .myFilesRoot _ => .ok (sceneNode "root" "root" .folder)
  | .folderChildren _ _ => [.ok (sceneNode "2" "b.txt" .file), .ok (sceneNode "1" "docs" .folder)]
  | .spawnLogin _ _ => ()
  | .authFinished =>
    some (.accepted (sceneCreds (if h.any isLoginSession then "second" else "first")))
  | .spawnUpload _ _ _ => ()
  | .spawnDownload _ _ _ _ => ()
  | .pollKey => some { code := .enter, control := false }

/-- the state after the steps, if each of them is `ok` -/
def sceneAfter (ok : Input → App → Trace ui → Bool) (is : List Input) : Option (App × Trace ui) :=
  play scene ok App.start App.step is

/-- the next step, with what it does -/
def sceneStep (i : Input) (x : App × Trace ui) : Trace ui × Option App :=
  exec scene x.2 (App.step i x.1)

def downloadOf : Event ui → Option String
  | ⟨.spawnDownload _ _ name _, _⟩ => some name
  | _ => none

theorem downloadOf_some {e : Event ui} {name : String} (h : downloadOf e = some name) :
    ∃ c uid dest, e = ⟨.spawnDownload c uid name dest, ()⟩ := by
  obtain ⟨call, a⟩ := e
  cases call <;> cases h
  exact ⟨_, _, _, rfl⟩

/-- the keys of a login, the pane of its files, and the second of them -/
def pickSecond : List Input := [.readKey, .readKey, .checkAuth, .action .togglePane, .action .down]

/-- the second of the files is shown and can be downloaded -/
def showsSecond (x : App × Trace ui) : Bool :=
  x.1.panes.remotePane.error = none ∧
    x.1.panes.remotePane.entries.map (fun e => e.name) = ["docs", "b.txt"] ∧
    (sceneStep (.action .download) x).1.filterMap downloadOf = ["b.txt"] ∧
    (sceneStep (.action .download) x).2.isSome

theorem panes_coherent_pickSecond : ∃ app h, AppReached (fun _ _ _ => True) app h ∧
    app.panes.remotePane.error = none ∧
    app.panes.remotePane.entries.map (fun e => e.name) = ["docs", "b.txt"] ∧ app.view.Coherent h ∧
    ∃ c uid entry, app.client = some c ∧ app.panes.remotePane.under = some entry ∧
      entry.isDir = false ∧ entry.nodeUid = some uid ∧ entry.name = "b.txt" := by
  have hafter : (sceneAfter (fun _ _ _ => true) pickSecond).any showsSecond = true := by decide +kernel
  obtain ⟨⟨app, h⟩, hplay, hshows⟩ := (Option.any_eq_true _ _).mp hafter
  obtain ⟨herror, hnames, hdownload, hdone⟩ := of_decide_eq_true hshows
  have happ : AppReached (fun _ _ _ => True) app h :=
    (play_reachable hplay).mono fun _ _ _ _ => trivial
  obtain ⟨hcoherent, hunder⟩ := panes_coherent happ
  obtain ⟨app', hrun⟩ := Option.isSome_iff_exists.mp hdone
  obtain ⟨e, he, hname⟩ := List.mem_filterMap.mp (hdownload ▸ List.mem_singleton_self "b.txt")
  obtain ⟨c, uid, dest, rfl⟩ := downloadOf_some hname
  obtain ⟨hclient, _, entry, hentry, hfile, huid, hentryName⟩ :=
    hunder _ _ app' (exec_runs scene h _ app' hrun) c uid "b.txt" dest () he
  exact ⟨app, h, happ, herror, hnames, hcoherent, c, uid, entry, hclient, hentry, hfile, huid,
    hentryName⟩

end ProtonDrive
