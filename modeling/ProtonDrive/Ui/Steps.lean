import ProtonDrive.Lib.Histories
import ProtonDrive.App.Ui

/-!
# What a step of the interface can do

* `Input`, `App.step`     the steps: an action, a look at the login task or at the transfers, a key, and
                          what the task of a transfer sends;
* `View`                  the part of the state that is about the panes and the client;
* `Refreshed`, `NoClient` what a listing of the remote pane, and a client that cannot be built, come to;
* `Does v t v'`           everything a step can make of a view, with the calls it makes;
* `App.step_does`         every step does one of these, `tick_reached` that a turn of the loop is made
                          of steps.
-/

set_option linter.unusedVariables false

namespace ProtonDrive
open Encoding Effects Sorting

/-! ## steps -/

inductive Input where
  | action (a : Action)
  | checkAuth
  | pollTransfers
  | readKey
  | channel (i progress : Nat) (outcome : Option (Except String Unit))

/-- the task of a transfer has sent something -/
def Transfer.sent (t : Transfer) (progress : Nat) (outcome : Option (Except String Unit)) : Transfer :=
  { t with progressRx := progress, outcomeRx := outcome }

def App.step : Input → App → Ui App
  | .action a, app => apply app a
  | .checkAuth, app => checkAuthResult app
  | .pollTransfers, app => pure app.pollTransfers
  | .readKey, app => readKey app
  | .channel i progress outcome, app =>
    pure { app with transfers := app.transfers.modify i fun t => t.sent progress outcome }

/-- the states of the interface, with what was done before; `C` is asked of each step -/
abbrev AppReached (C : Input → App → Trace ui → Prop) (app : App) (h : Trace ui) : Prop :=
  Reachable App.start App.step C app h

/-! ## views -/

structure View where
  localPane : Pane
  remotePane : Pane
  client : Option ClientRef

def App.view (app : App) : View :=
  { localPane := app.panes.localPane, remotePane := app.panes.remotePane, client := app.client }

/-- the entries, up to the selected flags -/
def plain (entries : List PaneEntry) : List PaneEntry :=
  entries.map fun entry => { entry with selected := false }

/-- the cursor is in a row, or in the first if there is none -/
def Pane.Pointed (p : Pane) : Prop :=
  p.cursor < p.entries.length ∨ (p.entries = [] ∧ p.cursor = 0)

/-- only the cursor and the selected flags have changed -/
structure Pane.Rests (p p' : Pane) : Prop where
  cwd : p'.cwd = p.cwd
  remoteCwdUid : p'.remoteCwdUid = p.remoteCwdUid
  error : p'.error = p.error
  entries : plain p'.entries = plain p.entries
  pointed : p.Pointed → p'.Pointed

def Pane.failed (p : Pane) (msg : String) : Pane := { p with error := some msg }

/-- the nodes of a listing that has not failed -/
def allOk : ChildItems → Option (List MaybeNode)
  | [] => some []
  | .error _ :: _ => none
  | .ok node :: rest => (allOk rest).map fun nodes => node :: nodes

/-- the entries of the nodes, directories first and sorted by name -/
def remoteListing (nodes : List MaybeNode) : List PaneEntry :=
  sortBy dirsFirst (nodes.filterMap remoteEntry)

def Pane.listed (p : Pane) (uid : NodeUid) (nodes : List MaybeNode) : Pane :=
  { p with entries := remoteListing nodes, cursor := 0, remoteCwdUid := some uid, error := none }

/-- a listing of the folder `uid`, and what it makes of the pane -/
inductive Lists (c : ClientRef) (uid : NodeUid) (p : Pane) : Event ui → Pane → Prop
  | ok {items nodes} (h : allOk items = some nodes) :
      Lists c uid p ⟨.folderChildren c uid, items⟩ (p.listed uid nodes)
  | error {items} (msg : String) (h : allOk items = none) :
      Lists c uid p ⟨.folderChildren c uid, items⟩ (p.failed msg)

/-- what `refreshRemote` makes of the remote pane -/
inductive Refreshed (client : Option ClientRef) (p : Pane) : Trace ui → Pane → Prop
  | noClient (h : client = none) : Refreshed client p [] p
  | noRoot {c e} (msg : String) (hc : client = some c) (huid : p.remoteCwdUid = none) :
      Refreshed client p [⟨.myFilesRoot c, .error e⟩] (p.failed msg)
  | root {c node e p'} (hc : client = some c) (huid : p.remoteCwdUid = none)
      (h : Lists c node.uid p e p') : Refreshed client p [⟨.myFilesRoot c, .ok node⟩, e] p'
  | folder {c uid e p'} (hc : client = some c) (huid : p.remoteCwdUid = some uid)
      (h : Lists c uid p e p') : Refreshed client p [e] p'

/-- the calls that end without a client; `make` is the call for a session -/
inductive NoClient (make : Except String SessionRef → Event ui) : Trace ui → Prop
  | noTransport (e) : NoClient make [⟨.newTransport, .error e⟩]
  | noSession (e) : NoClient make [⟨.newTransport, .ok ()⟩, make (.error e)]
  | noAccount (s userId keyPassword e) : NoClient make [⟨.newTransport, .ok ()⟩, make (.ok s),
      ⟨.bootstrapAccount s userId keyPassword, .error e⟩]

/-- the calls that lead to the client `⟨s, a⟩` -/
def clientCalls (make : Except String SessionRef → Event ui) (s : SessionRef)
    (userId keyPassword : String) (a : Nat) : Trace ui :=
  [⟨.newTransport, .ok ()⟩, make (.ok s), ⟨.bootstrapAccount s userId keyPassword, .ok a⟩]

/-- what comes of the calls that are to lead to a client -/
inductive Builds (make : Except String SessionRef → Event ui) (app : App) :
    Trace ui → App × Except String Unit → Prop
  | noClient {t} (msg : String) (ht : NoClient make t) : Builds make app t (app, .error msg)
  | newClient {s userId keyPassword a t q app'}
      (h : Refreshed (some { session := s, account := a }) app.panes.remotePane t q)
      (hview : app'.view = { app.view with
        remotePane := q, client := some { session := s, account := a } }) :
      Builds make app (clientCalls make s userId keyPassword a ++ t) (app', .ok ())

def acceptance (creds : LoginCredentials) : Event ui := ⟨.authFinished, some (.accepted creds)⟩

def loginMade (creds : LoginCredentials) (r : Except String SessionRef) : Event ui :=
  ⟨.loginSession creds, r⟩

def sessionResumed (r : Except String SessionRef) : Event ui := ⟨.resumeSession, r⟩

/-- the event is no listing, starts no transfer and accepts no login -/
def isQuiet : Event ui → Bool
  | ⟨.readDir _, _⟩ => false
  | ⟨.myFilesRoot _, _⟩ => false
  | ⟨.folderChildren _ _, _⟩ => false
  | ⟨.spawnUpload _ _ _, _⟩ => false
  | ⟨.spawnDownload _ _ _ _, _⟩ => false
  | ⟨.authFinished, some (.accepted _)⟩ => false
  | _ => true

/-- the event is about the keyboard, or a login that is not accepted -/
def isIdle : Event ui → Bool
  | ⟨.pollKey, _⟩ => true
  | ⟨.spawnLogin _ _, _⟩ => true
  | ⟨.authFinished, some (.accepted _)⟩ => false
  | ⟨.authFinished, _⟩ => true
  | _ => false

/-- the remote pane before a listing: as it is, at the root, or at the directory under the cursor -/
inductive Aims (p : Pane) : Pane → Prop
  | here : Aims p p
  | root : Aims p { p with remoteCwdUid := none, cursor := 0 }
  | folder {entry uid} (hentry : p.under = some entry) (hdir : entry.isDir = true)
      (huid : entry.nodeUid = some uid) : Aims p { p with remoteCwdUid := some uid, cursor := 0 }

inductive Does (v : View) : Trace ui → View → Prop
  | rests {t p q} (ht : ∀ e ∈ t, isIdle e = true) (hp : v.localPane.Rests p)
      (hq : v.remotePane.Rests q) : Does v t { v with localPane := p, remotePane := q }
  | reads (p : Pane) (answer : DirItems) :
      Does v [⟨.readDir p.cwd, answer⟩] { v with localPane := p.loaded answer }
  | lists {p t q} (hp : Aims v.remotePane p) (h : Refreshed v.client p t q) :
      Does v t { v with remotePane := q }
  | uploads {c parent} (localPath : String) (hc : v.client = some c)
      (hparent : v.remotePane.remoteCwdUid = some parent) :
      Does v [⟨.spawnUpload c localPath parent, ()⟩] v
  | downloads {c entry uid} (hc : v.client = some c) (herror : v.remotePane.error = none)
      (hentry : v.remotePane.under = some entry) (hfile : entry.isDir = false)
      (huid : entry.nodeUid = some uid) :
      Does v [⟨.spawnDownload c uid entry.name v.localPane.cwd, ()⟩] v
  | noClient {t} (creds : LoginCredentials) (msg : String) (ht : NoClient (loginMade creds) t) :
      Does v (acceptance creds :: t) { v with remotePane := v.remotePane.failed msg }
  | newClient {s userId keyPassword a t q} (creds : LoginCredentials)
      (h : Refreshed (some { session := s, account := a }) v.remotePane t q) :
      Does v (acceptance creds :: (clientCalls (loginMade creds) s userId keyPassword a ++ t))
        { v with remotePane := q, client := some { session := s, account := a } }
  | idle {e t v'} (he : isIdle e = true) (h : Does v t v') : Does v (e :: t) v'

/-- the view before a stored session is looked for -/
def View.new (cwd : String) (answer : DirItems) : View where
  localPane := Pane.loaded { cwd, entries := [], cursor := 0, error := none, remoteCwdUid := none }
    answer
  remotePane := { cwd := "/", entries := [], cursor := 0,
                  error := some "Not signed in — press Enter or F4 to login", remoteCwdUid := none }
  client := none

/-- what is made of a stored session -/
inductive Resumes (v : View) : Trace ui → View → Prop
  | not : Resumes v [] v
  | noClient {t} (msg : String) (ht : NoClient sessionResumed t) :
      Resumes v t { v with remotePane := v.remotePane.failed msg }
  | newClient {s userId keyPassword a t q}
      (h : Refreshed (some { session := s, account := a }) v.remotePane t q) :
      Resumes v (clientCalls sessionResumed s userId keyPassword a ++ t)
        { v with remotePane := q, client := some { session := s, account := a } }

/-! ## panes -/

section
variable {p p' : Pane} {panes panes' : Panes} {t : Trace ui}

theorem Pane.Rests.refl (p : Pane) : p.Rests p := ⟨rfl, rfl, rfl, rfl, id⟩

theorem plain_modify (entries : List PaneEntry) (i : Nat) :
    plain (entries.modify i fun e => { e with selected := !e.selected }) = plain entries := by
  unfold plain
  induction entries generalizing i with
  | nil => cases i <;> rfl
  | cons entry rest ih =>
    cases i with
    | zero => simp
    | succ i => simp [ih]

theorem Pane.cursorUp_rests (p : Pane) : p.Rests p.cursorUp := by
  refine ⟨rfl, rfl, rfl, rfl, ?_⟩
  rintro (h | ⟨hempty, hcursor⟩)
  · left
    show p.cursor - 1 < p.entries.length
    omega
  · right
    refine ⟨hempty, ?_⟩
    show p.cursor - 1 = 0
    omega

theorem Pane.cursorDown_rests (p : Pane) : p.Rests p.cursorDown := by
  unfold Pane.cursorDown
  by_cases h : p.cursor + 1 < p.entries.length
  · rw [if_pos h]
    exact ⟨rfl, rfl, rfl, rfl, fun _ => .inl h⟩
  · rw [if_neg h]
    exact .refl p

theorem Pane.toggleSelect_rests (p : Pane) : p.Rests p.toggleSelect := by
  refine ⟨rfl, rfl, rfl, plain_modify _ _, ?_⟩
  have hlength : p.toggleSelect.entries.length = p.entries.length := List.length_modify ..
  rintro (h | ⟨hempty, hcursor⟩)
  · left
    rw [hlength]
    exact h
  · right
    rw [hempty] at hlength
    exact ⟨List.length_eq_zero_iff.mp hlength, hcursor⟩

theorem uiCall_bind_done {α : Type} {c : UiCall} {f : ui.Ans c → Ui α} {a : α}
    (h : Runs (uiCall c >>= f) t (.done a)) :
    ∃ r t', t = ⟨c, r⟩ :: t' ∧ Runs (f r) t' (.done a) := by
  rcases Runs.call_inv h with ⟨_, hstopped⟩ | ⟨r, t', rfl, hrest⟩
  · cases hstopped
  · exact ⟨r, t', rfl, hrest⟩

theorem pure_ui_done {α : Type} {a b : α} (h : Runs (pure a : Ui α) t (.done b)) :
    t = [] ∧ b = a := by
  obtain ⟨rfl, hdone | hstopped⟩ := Runs.ret_inv h
  · cases hdone
    exact ⟨rfl, rfl⟩
  · cases hstopped

theorem loadLocal_done (h : Runs (Pane.loadLocal p) t (.done p')) :
    ∃ answer, t = [⟨.readDir p.cwd, answer⟩] ∧ p' = p.loaded answer := by
  obtain ⟨answer, t', rfl, hrest⟩ := uiCall_bind_done h
  obtain ⟨rfl, rfl⟩ := pure_ui_done hrest
  exact ⟨answer, rfl, rfl⟩

end

/-! ## listings -/

section
variable {app app' : App} {t : Trace ui} {items : ChildItems}

theorem childEntries_cases (items : ChildItems) :
    (∃ nodes, allOk items = some nodes ∧
      childEntries items = .ok (nodes.filterMap remoteEntry)) ∨
    (allOk items = none ∧ ∃ e, childEntries items = .error e) := by
  induction items with
  | nil => exact .inl ⟨[], rfl, rfl⟩
  | cons item rest ih =>
    cases item with
    | error e => exact .inr ⟨rfl, e, rfl⟩
    | ok node =>
      rcases ih with ⟨nodes, hnodes, hentries⟩ | ⟨hnone, e, herror⟩
      · refine .inl ⟨node :: nodes, ?_, ?_⟩
        · show (allOk rest).map _ = _
          rw [hnodes]
          rfl
        · show (childEntries rest >>= fun entries => pure ((remoteEntry node).toList ++ entries)) = _
          rw [hentries]
          cases hentry : remoteEntry node with
          | none =>
            rw [List.filterMap_cons_none hentry]
            rfl
          | some entry =>
            rw [List.filterMap_cons_some hentry]
            rfl
      · refine .inr ⟨?_, e, ?_⟩
        · show (allOk rest).map _ = none
          rw [hnone]
          rfl
        · show (childEntries rest >>= fun entries => pure ((remoteEntry node).toList ++ entries)) = _
          rw [herror]
          rfl

theorem listFolder_lists {c : ClientRef} {uid : NodeUid}
    (h : Runs (listFolder app c uid) t (.done app')) :
    ∃ e q, t = [e] ∧ Lists c uid app.panes.remotePane e q ∧
      app'.view = { app.view with remotePane := q } := by
  obtain ⟨items, t', rfl, hrest⟩ := uiCall_bind_done h
  obtain ⟨rfl, rfl⟩ := pure_ui_done hrest
  rcases childEntries_cases items with ⟨nodes, hnodes, hentries⟩ | ⟨hnone, e, herror⟩
  · refine ⟨_, _, rfl, .ok hnodes, ?_⟩
    unfold App.remoteFilled
    rw [hentries]
    rfl
  · refine ⟨_, _, rfl, .error ("list: " ++ e.display) hnone, ?_⟩
    unfold App.remoteFilled
    rw [herror]
    rfl

theorem refreshRemote_refreshed (h : Runs (refreshRemote app) t (.done app')) :
    ∃ q, Refreshed app.client app.panes.remotePane t q ∧
      app'.view = { app.view with remotePane := q } := by
  unfold refreshRemote at h
  cases hclient : app.client with
  | none =>
    rw [hclient] at h
    obtain ⟨rfl, rfl⟩ := pure_ui_done h
    exact ⟨_, .noClient rfl, rfl⟩
  | some c =>
    rw [hclient] at h
    cases huid : app.panes.remotePane.remoteCwdUid with
    | some uid =>
      simp only [huid] at h
      obtain ⟨e, q, rfl, hlists, hview⟩ := listFolder_lists h
      exact ⟨q, .folder rfl huid hlists, hview⟩
    | none =>
      simp only [huid] at h
      obtain ⟨root, t', rfl, hrest⟩ := uiCall_bind_done h
      cases root with
      | error e =>
        obtain ⟨rfl, rfl⟩ := pure_ui_done hrest
        exact ⟨_, .noRoot ("my-files root: " ++ e.display) rfl huid, rfl⟩
      | ok node =>
        obtain ⟨e, q, rfl, hlists, hview⟩ := listFolder_lists hrest
        exact ⟨q, .root rfl huid hlists, hview⟩

end

/-! ## clients -/

section
variable {app : App} {t : Trace ui} {built : App × Except String Unit}

/-- the calls behind the one for a session -/
theorem buildClientWithSession_builds {s : SessionRef} {userId keyPassword : String}
    (make : Except String SessionRef → Event ui)
    (h : Runs (buildClientWithSession app s userId keyPassword) t (.done built)) :
    Builds make app (⟨.newTransport, .ok ()⟩ :: make (.ok s) :: t) built := by
  obtain ⟨account, t', rfl, hrest⟩ := uiCall_bind_done h
  cases account with
  | error e =>
    obtain ⟨rfl, rfl⟩ := pure_ui_done hrest
    exact .noClient _ (.noAccount s userId keyPassword e)
  | ok a =>
    obtain ⟨app', t₁, t₂, rfl, hrefresh, hdone⟩ := hrest.bind_done
    obtain ⟨rfl, rfl⟩ := pure_ui_done hdone
    obtain ⟨q, hq, hview⟩ := refreshRemote_refreshed hrefresh
    rw [List.append_nil]
    exact .newClient hq hview

theorem buildClientFromLogin_builds {creds : LoginCredentials}
    (h : Runs (buildClientFromLogin app creds) t (.done built)) :
    Builds (loginMade creds) app t built := by
  obtain ⟨transport, t', rfl, hrest⟩ := uiCall_bind_done h
  cases transport with
  | error e =>
    obtain ⟨rfl, rfl⟩ := pure_ui_done hrest
    exact .noClient _ (.noTransport e)
  | ok u =>
    obtain ⟨session, t'', rfl, hsession⟩ := uiCall_bind_done hrest
    cases session with
    | error e =>
      obtain ⟨rfl, rfl⟩ := pure_ui_done hsession
      exact .noClient _ (.noSession e)
    | ok s => exact buildClientWithSession_builds (loginMade creds) hsession

theorem buildClientFromKeyring_builds (h : Runs (buildClientFromKeyring app) t (.done built)) :
    Builds sessionResumed app t built := by
  obtain ⟨transport, t', rfl, hrest⟩ := uiCall_bind_done h
  cases transport with
  | error e =>
    obtain ⟨rfl, rfl⟩ := pure_ui_done hrest
    exact .noClient _ (.noTransport e)
  | ok u =>
    obtain ⟨session, t'', rfl, hsession⟩ := uiCall_bind_done hrest
    cases session with
    | error e =>
      obtain ⟨rfl, rfl⟩ := pure_ui_done hsession
      exact .noClient _ (.noSession e)
    | ok s => exact buildClientWithSession_builds sessionResumed hsession

end

/-! ## what each step does -/

section
variable {app app' : App} {t : Trace ui}

/-- a step that leaves the panes and the client as they are -/
theorem Does.same {v : View} (ht : ∀ e ∈ t, isIdle e = true) : Does v t v :=
  .rests ht (.refl _) (.refl _)

theorem checkAuthResult_does (h : Runs (checkAuthResult app) t (.done app')) :
    Does app.view t app'.view := by
  unfold checkAuthResult at h
  split at h
  · obtain ⟨outcome, t', rfl, hrest⟩ := uiCall_bind_done h
    match outcome with
    | none =>
      obtain ⟨rfl, rfl⟩ := pure_ui_done hrest
      exact .same (by simp [isIdle])
    | some (.refused msg) =>
      obtain ⟨rfl, rfl⟩ := pure_ui_done hrest
      exact .same (v := app.view) (by simp [isIdle])
    | some (.panicked msg) =>
      obtain ⟨rfl, rfl⟩ := pure_ui_done hrest
      exact .same (v := app.view) (by simp [isIdle])
    | some (.accepted creds) =>
      obtain ⟨built, t₁, t₂, rfl, hbuild, hdone⟩ := hrest.bind_done
      obtain ⟨rfl, rfl⟩ := pure_ui_done hdone
      rw [List.append_nil]
      cases buildClientFromLogin_builds hbuild with
      | noClient msg ht => exact .noClient creds _ ht
      | newClient hq hview =>
        show Does _ _ (App.view _)
        rw [App.loggedIn, hview]
        exact .newClient creds hq
  · obtain ⟨rfl, rfl⟩ := pure_ui_done h
    exact .same (List.forall_mem_nil _)

/-- a step that makes no call and leaves the panes and the client as they are -/
theorem does_pure {app₁ : App} (h : Runs (pure app₁ : Ui App) t (.done app'))
    (hview : app₁.view = app.view) : Does app.view t app'.view := by
  obtain ⟨rfl, rfl⟩ := pure_ui_done h
  rw [hview]
  exact .same (List.forall_mem_nil _)

theorem handleLoginKey_does {form : LoginForm} {key : KeyEvent}
    (h : Runs (handleLoginKey app form key) t (.done app')) : Does app.view t app'.view := by
  unfold handleLoginKey at h
  split at h
  · exact does_pure h rfl
  · exact does_pure h rfl
  · exact does_pure h rfl
  · by_cases hfield : form.field = .email
    · rw [if_pos hfield] at h
      exact does_pure h rfl
    · rw [if_neg hfield] at h
      obtain ⟨_, t', rfl, hrest⟩ := uiCall_bind_done h
      obtain ⟨rfl, rfl⟩ := pure_ui_done hrest
      exact .same (v := app.view) (by simp [isIdle])
  · exact does_pure h rfl
  · next c =>
    by_cases hcontrol : key.control = true
    · rw [if_pos hcontrol] at h
      exact does_pure h rfl
    · rw [if_neg hcontrol] at h
      exact does_pure h rfl
  · exact does_pure h rfl

/-- an action that lists the remote pane again, at another folder perhaps -/
theorem refreshRemote_does {app₁ : App} (h : Runs (refreshRemote app₁) t (.done app'))
    (hclient : app₁.client = app.client) (hlocal : app₁.panes.localPane = app.panes.localPane)
    (hremote : Aims app.panes.remotePane app₁.panes.remotePane) : Does app.view t app'.view := by
  obtain ⟨q, hq, hview⟩ := refreshRemote_refreshed h
  rw [hclient] at hq
  have hsame : app'.view = { app.view with remotePane := q } := by
    rw [hview]
    unfold App.view
    rw [hclient, hlocal]
  rw [hsame]
  exact .lists hremote hq

/-- an action on the local pane -/
theorem onPanes_does {p : Ui Panes} (h : Runs (app.onPanes p) t (.done app'))
    (hp : ∀ u panes', Runs p u (.done panes') → Does app.view u { app with panes := panes' }.view) :
    Does app.view t app'.view := by
  obtain ⟨panes', t₁, t₂, rfl, hpanes, hdone⟩ := h.bind_done
  obtain ⟨rfl, rfl⟩ := pure_ui_done hdone
  rw [List.append_nil]
  exact hp t₁ panes' hpanes

/-- the local pane is loaded, from the state `p` -/
theorem loadInto_does {p : Pane} {panes' : Panes} (h : Runs (do
      let localPane ← p.loadLocal
      return ({ app.panes with localPane } : Panes)) t (.done panes')) :
    Does app.view t { app with panes := panes' }.view := by
  obtain ⟨p', t₁, t₂, rfl, hload, hdone⟩ := h.bind_done
  obtain ⟨rfl, rfl⟩ := pure_ui_done hdone
  obtain ⟨answer, rfl, rfl⟩ := loadLocal_done hload
  rw [List.append_nil]
  exact .reads p answer

theorem togglePane_does (h : Runs (togglePane app) t (.done app')) : Does app.view t app'.view := by
  unfold togglePane listIfEmpty at h
  split at h
  · exact refreshRemote_does h rfl rfl .here
  · exact does_pure h rfl

theorem descendRemote_does (h : Runs (descendRemote app) t (.done app')) :
    Does app.view t app'.view := by
  unfold descendRemote at h
  split at h
  · exact does_pure h rfl
  · next entry hentry =>
    split at h
    · next hdir =>
      split at h
      · exact does_pure h rfl
      · next uid huid => exact refreshRemote_does h rfl rfl (.folder hentry hdir huid)
    · exact does_pure h rfl

theorem enter_does (h : Runs (enter app) t (.done app')) : Does app.view t app'.view := by
  unfold enter at h
  split at h
  · split at h
    · exact does_pure h rfl
    · exact descendRemote_does h
  · refine onPanes_does h fun u panes' hpanes => ?_
    unfold Panes.descend at hpanes
    split at hpanes
    · next heq => cases heq
    · split at hpanes
      · obtain ⟨rfl, rfl⟩ := pure_ui_done hpanes
        exact .same (List.forall_mem_nil _)
      · split at hpanes
        · exact loadInto_does hpanes
        · obtain ⟨rfl, rfl⟩ := pure_ui_done hpanes
          exact .same (List.forall_mem_nil _)

theorem toParent_does (h : Runs (toParent app) t (.done app')) : Does app.view t app'.view := by
  unfold toParent at h
  split at h
  · exact refreshRemote_does h rfl rfl .root
  · refine onPanes_does h fun u panes' hpanes => ?_
    unfold Panes.ascend at hpanes
    split at hpanes
    · next heq => cases heq
    · split at hpanes
      · obtain ⟨rfl, rfl⟩ := pure_ui_done hpanes
        exact .same (List.forall_mem_nil _)
      · exact loadInto_does hpanes

theorem refreshPane_does (h : Runs (refreshPane app) t (.done app')) : Does app.view t app'.view := by
  unfold refreshPane at h
  split at h
  · exact refreshRemote_does h rfl rfl .here
  · refine onPanes_does h fun u panes' hpanes => ?_
    unfold Panes.refresh at hpanes
    split at hpanes
    · obtain ⟨rfl, rfl⟩ := pure_ui_done hpanes
      exact .same (List.forall_mem_nil _)
    · exact loadInto_does hpanes

theorem startUpload_does (h : Runs (startUpload app) t (.done app')) : Does app.view t app'.view := by
  unfold startUpload at h
  split at h
  · exact does_pure h rfl
  · next c hc =>
    split at h
    · exact does_pure h rfl
    · next localPath _ =>
      split at h
      · exact does_pure h rfl
      · next parent hparent =>
        obtain ⟨_, t', rfl, hrest⟩ := uiCall_bind_done h
        obtain ⟨rfl, rfl⟩ := pure_ui_done hrest
        exact .uploads localPath hc hparent

/-- the node and the name are those of the file under the cursor -/
theorem selectedRemoteNode_some {panes : Panes} {uid : NodeUid} {name : String}
    (h : panes.selectedRemoteNode = some (uid, name)) :
    ∃ entry, panes.remotePane.error = none ∧ panes.remotePane.under = some entry ∧
      entry.isDir = false ∧ entry.nodeUid = some uid ∧ entry.name = name := by
  unfold Panes.selectedRemoteNode at h
  by_cases herror : panes.remotePane.error.isSome = true
  · rw [if_pos herror] at h
    cases h
  · rw [if_neg herror] at h
    cases hentry : panes.remotePane.under with
    | none =>
      rw [hentry] at h
      cases h
    | some entry =>
      simp only [hentry] at h
      by_cases hdir : entry.isDir = true
      · rw [if_pos hdir] at h
        cases h
      · rw [if_neg hdir] at h
        obtain ⟨uid', huid, heq⟩ := Option.map_eq_some_iff.mp h
        cases heq
        refine ⟨entry, ?_, rfl, Bool.eq_false_iff.mpr hdir, huid, rfl⟩
        exact Option.not_isSome_iff_eq_none.mp herror

theorem startDownload_does (h : Runs (startDownload app) t (.done app')) :
    Does app.view t app'.view := by
  unfold startDownload at h
  split at h
  · exact does_pure h rfl
  · next c hc =>
    split at h
    · exact does_pure h rfl
    · next uid name hnode =>
      obtain ⟨entry, herror, hentry, hfile, huid, rfl⟩ := selectedRemoteNode_some hnode
      obtain ⟨_, t', rfl, hrest⟩ := uiCall_bind_done h
      obtain ⟨rfl, rfl⟩ := pure_ui_done hrest
      exact .downloads hc herror hentry hfile huid

/-- a change to the pane in focus that leaves its entries -/
theorem atMut_does {f : Pane → Pane} (hf : ∀ p : Pane, p.Rests (f p)) (focus : Focus) :
    Does app.view [] { app with panes := app.panes.atMut f focus }.view := by
  cases focus with
  | onLocal => exact .rests (List.forall_mem_nil _) (hf _) (.refl _)
  | onRemote => exact .rests (List.forall_mem_nil _) (.refl _) (hf _)

theorem apply_does {a : Action} (h : Runs (apply app a) t (.done app')) :
    Does app.view t app'.view := by
  cases a with
  | quit => exact does_pure h rfl
  | login => exact does_pure h rfl
  | togglePane => exact togglePane_does h
  | up =>
    obtain ⟨rfl, rfl⟩ := pure_ui_done h
    exact atMut_does Pane.cursorUp_rests app.focus
  | down =>
    obtain ⟨rfl, rfl⟩ := pure_ui_done h
    exact atMut_does Pane.cursorDown_rests app.focus
  | enter => exact enter_does h
  | parent => exact toParent_does h
  | refresh => exact refreshPane_does h
  | upload => exact startUpload_does h
  | download => exact startDownload_does h
  | help => exact does_pure h rfl
  | none => exact does_pure h rfl
  | toggleSelect =>
    obtain ⟨rfl, rfl⟩ := pure_ui_done h
    exact atMut_does Pane.toggleSelect_rests app.focus

theorem readKey_does (h : Runs (readKey app) t (.done app')) : Does app.view t app'.view := by
  obtain ⟨key, t', rfl, hrest⟩ := uiCall_bind_done h
  refine .idle rfl ?_
  cases key with
  | none => exact does_pure hrest rfl
  | some key =>
    simp only [handleKey] at hrest
    split at hrest
    · exact handleLoginKey_does hrest
    · refine does_pure hrest ?_
      by_cases hesc : key.code = .esc
      · rw [if_pos hesc]
        rfl
      · rw [if_neg hesc]
    · exact @apply_does { app with status := none } _ _ _ hrest

theorem App.step_does {i : Input} (h : Runs (App.step i app) t (.done app')) :
    Does app.view t app'.view := by
  cases i with
  | action a => exact apply_does h
  | checkAuth => exact checkAuthResult_does h
  | pollTransfers => exact does_pure h rfl
  | readKey => exact readKey_does h
  | channel i progress outcome => exact does_pure h rfl

/-! ## the start and the loop -/

theorem start_resumes (h : Runs App.start t (.done app)) : ∃ stored dir answer t',
    t = ⟨.storedSession, stored⟩ :: ⟨.currentDir, dir⟩ ::
      ⟨.readDir (dir.getD "/"), answer⟩ :: t' ∧
    Resumes (View.new (dir.getD "/") answer) t' app.view := by
  obtain ⟨app₀, t₁, t₂, rfl, hnew, hresume⟩ := h.bind_done
  obtain ⟨stored, t₃, rfl, hpanes⟩ := uiCall_bind_done hnew
  obtain ⟨panes, t₄, t₅, rfl, hpanes', hmake⟩ := hpanes.bind_done
  obtain ⟨rfl, rfl⟩ := pure_ui_done hmake
  obtain ⟨dir, t₆, rfl, hload⟩ := uiCall_bind_done hpanes'
  obtain ⟨p, t₇, t₈, rfl, hread, hdone⟩ := hload.bind_done
  obtain ⟨rfl, rfl⟩ := pure_ui_done hdone
  obtain ⟨answer, rfl, rfl⟩ := loadLocal_done hread
  refine ⟨stored, dir, answer, t₂, rfl, ?_⟩
  unfold App.resume at hresume
  split at hresume
  · obtain ⟨built, t₉, t₁₀, rfl, hbuild, hend⟩ := hresume.bind_done
    obtain ⟨rfl, rfl⟩ := pure_ui_done hend
    rw [List.append_nil]
    cases buildClientFromKeyring_builds hbuild with
    | noClient msg ht => exact .noClient _ ht
    | newClient hq hview =>
      rw [App.resumed, hview]
      exact .newClient hq
  · obtain ⟨rfl, rfl⟩ := pure_ui_done hresume
    exact .not

/-- a turn of the loop is three steps -/
theorem tick_reached {C : Input → App → Trace ui → Prop} {h : Trace ui} (happ : AppReached C app h)
    (hC : ∀ i app t, C i app t) (hrun : Runs (tick app) t (.done app')) :
    AppReached C app' (h ++ t) := by
  obtain ⟨app₁, t₁, t₂, rfl, hcheck, hkey⟩ := hrun.bind_done
  have hchecked : AppReached C app₁ (h ++ t₁) := .step .checkAuth happ hcheck (hC _ _ _)
  have hpolled : AppReached C app₁.pollTransfers (h ++ t₁ ++ []) :=
    .step .pollTransfers hchecked (.ret _) (hC _ _ _)
  have hread : AppReached C app' (h ++ t₁ ++ [] ++ t₂) := .step .readKey hpolled hkey (hC _ _ _)
  rw [List.append_nil, List.append_assoc] at hread
  exact hread

end

end ProtonDrive
