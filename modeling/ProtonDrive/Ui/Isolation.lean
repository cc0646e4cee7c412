import ProtonDrive.Ui.Coherent

/-!
# One account after another

* `loginIn`, `builtClient`    the last login that was accepted, and the client that was built for it;
* `Obtained`                  the nodes that a client has answered with;
* `Fine`                      a call uses this client, and a node that was obtained through it;
* `App.Isolated`              all calls were fine, and without a client nothing is listed or transferred;
* `SwitchOk`                  a login that leaves nothing of the account before;
* `switch_isolated`           if all logins are of this kind, every state is isolated.

A login that leads to no client leaves the client of the account before, and one that does leaves the
folder that was shown: `first_client_lists` is a run where the second account is named in the status
line and the files are listed for the first.
-/

set_option linter.unusedVariables false

namespace ProtonDrive
open Encoding Effects Sorting

/-! ## clients and nodes -/

/-- the login that is accepted -/
def loginIn : Event ui → Option LoginCredentials
  | ⟨.authFinished, some (.accepted creds)⟩ => some creds
  | _ => none

def newSession (creds : LoginCredentials) : Event ui → Option SessionRef
  | ⟨.loginSession creds', .ok s⟩ => if creds' = creds then some s else none
  | _ => none

def newAccount (s : SessionRef) : Event ui → Option Nat
  | ⟨.bootstrapAccount s' _ _, .ok a⟩ => if s' = s then some a else none
  | _ => none

/-- the client that was built from the session of a login -/
def builtClient (creds : LoginCredentials) (t : Trace ui) : Option ClientRef :=
  (latest (newSession creds) t).bind fun session =>
    (latest (newAccount session) t).map fun account => { session, account }

/-- the client that a listing or a transfer is made with -/
def usedClient : UiCall → Option ClientRef
  | .myFilesRoot c => some c
  | .folderChildren c _ => some c
  | .spawnUpload c _ _ => some c
  | .spawnDownload c _ _ _ => some c
  | _ => none

def givenUid : UiCall → Option NodeUid
  | .folderChildren _ uid => some uid
  | .spawnUpload _ _ parent => some parent
  | .spawnDownload _ node _ _ => some node
  | _ => none

def itemUid : Except Error MaybeNode → Option NodeUid
  | .ok node => some node.uid
  | .error _ => none

/-- the nodes of an answer to the client -/
def answered (c : ClientRef) : Event ui → List NodeUid
  | ⟨.myFilesRoot c', root⟩ => if c' = c then (itemUid root).toList else []
  | ⟨.folderChildren c' _, items⟩ => if c' = c then items.filterMap itemUid else []
  | _ => []

def Obtained (c : ClientRef) (t : Trace ui) (uid : NodeUid) : Prop := ∃ e ∈ t, uid ∈ answered c e

/-- after a login the call uses its client, and a node obtained through it -/
def Fine (h : Trace ui) (call : UiCall) : Prop :=
  ∀ creds t, since loginIn h = some (creds, t) → ∀ c, usedClient call = some c →
    builtClient creds t = some c ∧ ∀ uid, givenUid call = some uid → Obtained c t uid

structure App.Isolated (app : App) (h : Trace ui) : Prop where
  calls : AllAfter Fine h
  client : ∀ creds t, since loginIn h = some (creds, t) → app.client = builtClient creds t
  /-- without a client of the last login -/
  refused : ∀ creds t, since loginIn h = some (creds, t) → builtClient creds t = none →
    ∀ i u app', Runs (App.step i app) u (.done app') → (∀ e ∈ u, loginIn e = none) →
      (∀ e ∈ u, usedClient e.call = none) ∧
      (i = .action .upload ∨ i = .action .download → app'.status = some notAuthenticated)

/-! ## logins -/

/-- a listing that has not failed -/
def isListed : Event ui → Bool
  | ⟨.folderChildren _ _, items⟩ => (allOk items).isSome
  | _ => false

/-- a login comes while there is no client, or it leads to a client and nothing is left of the one
before: no folder, and no directory among the entries unless they are replaced -/
def SwitchOk (v : View) (t : Trace ui) : Prop :=
  ∀ login ∈ since loginIn t, v.client = none ∨
    ((builtClient login.1 login.2).isSome ∧ v.remotePane.remoteCwdUid = none ∧
      (login.2.any isListed ∨ ∀ entry ∈ v.remotePane.entries, entry.isDir = false))

instance (v : View) (t : Trace ui) : Decidable (SwitchOk v t) := by
  unfold SwitchOk
  infer_instance

/-- the nodes that the pane holds were obtained through the client -/
structure Owned (c : ClientRef) (t : Trace ui) (p : Pane) : Prop where
  folder : ∀ uid, p.remoteCwdUid = some uid → Obtained c t uid
  dirs : ∀ entry ∈ p.entries, entry.isDir = true → ∀ uid, entry.nodeUid = some uid → Obtained c t uid
  shown : p.error = none → ∀ entry ∈ p.entries, ∀ uid, entry.nodeUid = some uid → Obtained c t uid

structure View.Isolated (h : Trace ui) (v : View) : Prop where
  calls : AllAfter Fine h
  client : ∀ creds t, since loginIn h = some (creds, t) → v.client = builtClient creds t
  owned : ∀ creds t c, since loginIn h = some (creds, t) → v.client = some c →
    Owned c t v.remotePane

/-! ## calls that are not about logins -/

/-- the event is no part of a login -/
structure Settled (e : Event ui) : Prop where
  login : loginIn e = none
  session : ∀ creds, newSession creds e = none
  account : ∀ s, newAccount s e = none

theorem settled_uses {e : Event ui} {c : ClientRef} (he : usedClient e.call = some c) : Settled e := by
  obtain ⟨call, a⟩ := e
  cases call with
  | myFilesRoot _ => exact ⟨rfl, fun _ => rfl, fun _ => rfl⟩
  | folderChildren _ _ => exact ⟨rfl, fun _ => rfl, fun _ => rfl⟩
  | spawnUpload _ _ _ => exact ⟨rfl, fun _ => rfl, fun _ => rfl⟩
  | spawnDownload _ _ _ _ => exact ⟨rfl, fun _ => rfl, fun _ => rfl⟩
  | _ => cases he

theorem settled_idle {e : Event ui} (he : isIdle e = true) : Settled e := by
  obtain ⟨call, a⟩ := e
  cases call with
  | pollKey => exact ⟨rfl, fun _ => rfl, fun _ => rfl⟩
  | spawnLogin _ _ => exact ⟨rfl, fun _ => rfl, fun _ => rfl⟩
  | authFinished =>
    refine ⟨?_, fun _ => rfl, fun _ => rfl⟩
    cases a with
    | none => rfl
    | some outcome =>
      cases outcome with
      | accepted creds => cases he
      | refused msg => rfl
      | panicked msg => rfl
  | _ => cases he

theorem unused_idle {e : Event ui} (he : isIdle e = true) : usedClient e.call = none := by
  obtain ⟨call, a⟩ := e
  cases call with
  | myFilesRoot _ => cases he
  | folderChildren _ _ => cases he
  | spawnUpload _ _ _ => cases he
  | spawnDownload _ _ _ _ => cases he
  | _ => rfl

section
variable {h t seg : Trace ui} {creds : LoginCredentials} {c : ClientRef} {uid : NodeUid} {p q : Pane}
  {client : Option ClientRef}

theorem since_settled (ht : ∀ e ∈ t, Settled e) (hs : since loginIn (h ++ t) = some (creds, seg)) :
    ∃ before, since loginIn h = some (creds, before) ∧ seg = before ++ t := by
  rw [since_append_none fun e he => (ht e he).login] at hs
  obtain ⟨x, hx, heq⟩ := Option.map_eq_some_iff.mp hs
  cases heq
  exact ⟨x.2, hx, rfl⟩

theorem builtClient_append (ht : ∀ e ∈ t, Settled e) :
    builtClient creds (seg ++ t) = builtClient creds seg := by
  unfold builtClient
  rw [latest_append_none fun e he => (ht e he).session creds]
  congr 1
  funext session
  rw [latest_append_none fun e he => (ht e he).account session]

theorem fine_unused {call : UiCall} (hcall : usedClient call = none) : Fine h call := by
  intro creds t _ c hc
  rw [hcall] at hc
  cases hc

theorem Obtained.append (ho : Obtained c seg uid) (t : Trace ui) : Obtained c (seg ++ t) uid := by
  obtain ⟨e, he, huid⟩ := ho
  exact ⟨e, List.mem_append_left t he, huid⟩

theorem Owned.append (ho : Owned c seg p) (t : Trace ui) : Owned c (seg ++ t) p where
  folder uid huid := (ho.folder uid huid).append t
  dirs entry he hdir uid huid := (ho.dirs entry he hdir uid huid).append t
  shown herror entry he uid huid := (ho.shown herror entry he uid huid).append t

/-- the entries are the same, up to the selected flags -/
theorem Pane.Rests.mem (hp : p.Rests q) {entry : PaneEntry} (he : entry ∈ q.entries) :
    ∃ entry' ∈ p.entries, entry'.isDir = entry.isDir ∧ entry'.nodeUid = entry.nodeUid := by
  have hplain : { entry with selected := false } ∈ plain q.entries := List.mem_map_of_mem he
  rw [hp.entries] at hplain
  obtain ⟨entry', he', heq⟩ := List.mem_map.mp hplain
  injection heq with _ hdir _ _ huid
  exact ⟨entry', he', hdir, huid⟩

theorem Pane.Rests.owned (hp : p.Rests q) (ho : Owned c seg p) : Owned c seg q where
  folder uid huid := by
    rw [hp.remoteCwdUid] at huid
    exact ho.folder uid huid
  dirs entry he hdir uid huid := by
    obtain ⟨entry', he', hdir', huid'⟩ := hp.mem he
    exact ho.dirs entry' he' (hdir'.trans hdir) uid (huid'.trans huid)
  shown herror entry he uid huid := by
    rw [hp.error] at herror
    obtain ⟨entry', he', _, huid'⟩ := hp.mem he
    exact ho.shown herror entry' he' uid (huid'.trans huid)

/-- where the pane aims, it aims at a node that it holds -/
theorem Aims.folder_owned (hp : Aims p q) (ho : Owned c seg p) :
    ∀ uid, q.remoteCwdUid = some uid → Obtained c seg uid := by
  intro uid huid
  cases hp with
  | here => exact ho.folder uid huid
  | root => cases huid
  | folder hentry hdir hnode =>
    cases huid
    exact ho.dirs _ (List.mem_of_getElem? hentry) hdir _ hnode

/-! ## listings -/

theorem allOk_mem {items : ChildItems} {nodes : List MaybeNode} (hnodes : allOk items = some nodes)
    {node : MaybeNode} (hnode : node ∈ nodes) : .ok node ∈ items := by
  induction items generalizing nodes with
  | nil =>
    cases hnodes
    cases hnode
  | cons item rest ih =>
    cases item with
    | error e => cases hnodes
    | ok first =>
      obtain ⟨others, hothers, rfl⟩ := Option.map_eq_some_iff.mp hnodes
      rcases List.mem_cons.mp hnode with rfl | hnode
      · exact List.mem_cons_self
      · exact List.mem_cons_of_mem _ (ih hothers hnode)

/-- the nodes of a listing are those of its answer -/
theorem remoteListing_obtained {items : ChildItems} {nodes : List MaybeNode}
    (hnodes : allOk items = some nodes) {entry : PaneEntry} (he : entry ∈ remoteListing nodes)
    {node : NodeUid} (hnode : entry.nodeUid = some node) (t : Trace ui) :
    Obtained c (t ++ [⟨.folderChildren c uid, items⟩]) node := by
  obtain ⟨n, hn, hentry⟩ := List.mem_filterMap.mp (mem_sortBy.mp he)
  have huid : n.uid = node := Option.some.inj ((remoteEntry_some hentry).1.symm.trans hnode)
  refine ⟨_, List.mem_concat_self, ?_⟩
  show node ∈ if c = c then items.filterMap itemUid else []
  rw [if_pos rfl, List.mem_filterMap]
  exact ⟨.ok n, allOk_mem hnodes hn, congrArg some huid⟩

theorem Lists.call {e : Event ui} (hlists : Lists c uid p e q) : e.call = .folderChildren c uid := by
  cases hlists <;> rfl

/-- the directories among the entries are ones of the client, or the listing replaces the entries -/
def Replaced (c : ClientRef) (seg t : Trace ui) (p : Pane) : Prop :=
  t.any isListed = true ∨ ∀ entry ∈ p.entries, entry.isDir = true →
    ∀ uid, entry.nodeUid = some uid → Obtained c seg uid

/-- a pane with an error is only asked for its folder and its directories -/
theorem failed_owned (hfolder : ∀ uid, p.remoteCwdUid = some uid → Obtained c seg uid)
    (hdirs : Replaced c seg t p) (ht : t.any isListed = false) (msg : String) :
    Owned c (seg ++ t) (p.failed msg) where
  folder uid huid := (hfolder uid huid).append t
  dirs entry he hdir uid huid := by
    rcases hdirs with hlisted | hdirs
    · rw [ht] at hlisted
      cases hlisted
    · exact (hdirs entry he hdir uid huid).append t
  shown := nofun

theorem Lists.listed {e : Event ui} (hlists : Lists c uid p e q) :
    (∃ items nodes, e = ⟨.folderChildren c uid, items⟩ ∧ allOk items = some nodes ∧
      q = p.listed uid nodes) ∨ (isListed e = false ∧ ∃ msg, q = p.failed msg) := by
  cases hlists with
  | ok hnodes => exact .inl ⟨_, _, rfl, hnodes, rfl⟩
  | @error items msg hnone =>
    refine .inr ⟨?_, msg, rfl⟩
    show (allOk items).isSome = false
    rw [hnone]
    rfl

/-- a listing replaces what the pane holds -/
theorem listed_owned {items : ChildItems} {nodes : List MaybeNode} (hnodes : allOk items = some nodes)
    (huid : Obtained c seg uid) :
    Owned c (seg ++ [⟨.folderChildren c uid, items⟩]) (p.listed uid nodes) where
  folder uid' huid' := by
    cases huid'
    exact huid.append _
  dirs entry he _ node hnode := remoteListing_obtained hnodes he hnode seg
  shown _ entry he node hnode := remoteListing_obtained hnodes he hnode seg

theorem Refreshed.owned (hrefreshed : Refreshed (some c) p t q)
    (hfolder : ∀ uid, p.remoteCwdUid = some uid → Obtained c seg uid)
    (hdirs : Replaced c seg t p) : Owned c (seg ++ t) q := by
  cases hrefreshed with
  | noClient hnone => cases hnone
  | noRoot msg _ _ => exact failed_owned hfolder hdirs rfl msg
  | @root c' node e _ hc _ hlists =>
    cases hc
    rcases hlists.listed with ⟨items, nodes, rfl, hnodes, rfl⟩ | ⟨hfailed, msg, rfl⟩
    · rw [List.append_cons]
      refine listed_owned hnodes ⟨_, List.mem_concat_self, ?_⟩
      show node.uid ∈ if c = c then [node.uid] else []
      simp
    · refine failed_owned hfolder hdirs ?_ msg
      rw [List.any_cons, List.any_cons, hfailed]
      rfl
  | @folder c' uid e _ hc huid hlists =>
    cases hc
    rcases hlists.listed with ⟨items, nodes, rfl, hnodes, rfl⟩ | ⟨hfailed, msg, rfl⟩
    · exact listed_owned hnodes (hfolder uid huid)
    · exact failed_owned hfolder hdirs (by simp [hfailed]) msg

/-- the calls of a listing are fine if the folder is one of the client -/
theorem Refreshed.fine (hrefreshed : Refreshed client p t q) (hcalls : AllAfter Fine h)
    (hclient : ∀ creds seg, since loginIn h = some (creds, seg) → client = builtClient creds seg)
    (hfolder : ∀ creds seg c, since loginIn h = some (creds, seg) → client = some c →
      ∀ uid, p.remoteCwdUid = some uid → Obtained c seg uid) : AllAfter Fine (h ++ t) := by
  have hbuilt : ∀ {creds seg c}, since loginIn h = some (creds, seg) → client = some c →
      builtClient creds seg = some c := by
    intro creds seg c hs hc
    rw [← hclient creds seg hs]
    exact hc
  have hroot : ∀ {c}, client = some c → ∀ a, AllAfter Fine (h ++ [⟨.myFilesRoot c, a⟩]) := by
    intro c hc a
    apply hcalls.concat
    intro creds seg hs c' hused
    cases hused
    exact ⟨hbuilt hs hc, nofun⟩
  cases hrefreshed with
  | noClient _ =>
    rw [List.append_nil]
    exact hcalls
  | noRoot msg hc _ => exact hroot hc _
  | @root c node e _ hc _ hlists =>
    rw [List.append_cons]
    apply (hroot hc _).concat
    rw [hlists.call]
    intro creds seg hs c' hused
    cases hused
    obtain ⟨before, hbefore, rfl⟩ := since_settled (by simpa using settled_uses (c := c) rfl) hs
    refine ⟨?_, ?_⟩
    · rw [builtClient_append (by simpa using settled_uses (c := c) rfl)]
      exact hbuilt hbefore hc
    · intro uid huid
      cases huid
      refine ⟨_, List.mem_concat_self, ?_⟩
      show node.uid ∈ if c = c then [node.uid] else []
      simp
  | @folder c uid e _ hc huid hlists =>
    apply hcalls.concat
    rw [hlists.call]
    intro creds seg hs c' hused
    cases hused
    refine ⟨hbuilt hs hc, ?_⟩
    intro uid' huid'
    cases huid'
    exact hfolder creds seg c hs hc uid huid

theorem Refreshed.settled (hrefreshed : Refreshed client p t q) : ∀ e ∈ t, Settled e := by
  intro e he
  obtain ⟨c, _, hcall | ⟨uid, hcall⟩⟩ := hrefreshed.calls e he
  · exact settled_uses (c := c) (by rw [hcall]; rfl)
  · exact settled_uses (c := c) (by rw [hcall]; rfl)

end

/-! ## each step -/

section
variable {h t : Trace ui} {v v' : View}

theorem View.Isolated.append (hv : v.Isolated h) (ht : ∀ e ∈ t, Settled e)
    (hcalls : AllAfter Fine (h ++ t)) : v.Isolated (h ++ t) where
  calls := hcalls
  client creds seg hs := by
    obtain ⟨before, hbefore, rfl⟩ := since_settled ht hs
    rw [builtClient_append ht]
    exact hv.client creds before hbefore
  owned creds seg c hs hc := by
    obtain ⟨before, hbefore, rfl⟩ := since_settled ht hs
    exact (hv.owned creds before c hbefore hc).append t

/-- calls that use no client -/
theorem View.Isolated.unused (hv : v.Isolated h) (ht : ∀ e ∈ t, Settled e)
    (hunused : ∀ e ∈ t, usedClient e.call = none) : v.Isolated (h ++ t) :=
  hv.append ht (hv.calls.append fun e he _ => fine_unused (hunused e he))

/-- one call that uses the client -/
theorem View.Isolated.used (hv : v.Isolated h) {e : Event ui} {c : ClientRef}
    (hused : usedClient e.call = some c) (hc : v.client = some c)
    (huid : ∀ seg, Owned c seg v.remotePane → ∀ uid, givenUid e.call = some uid → Obtained c seg uid) :
    v.Isolated (h ++ [e]) := by
  refine hv.append (by simpa using settled_uses hused) (hv.calls.concat ?_)
  intro creds seg hs c' hc'
  rw [hused] at hc'
  cases hc'
  refine ⟨?_, huid seg (hv.owned creds seg c hs hc)⟩
  rw [← hv.client creds seg hs]
  exact hc

/-- a remote pane that is listed, perhaps with another client -/
theorem View.isolated_refreshed {client : Option ClientRef} {p q : Pane}
    (hrefreshed : Refreshed client p t q) (hcalls : AllAfter Fine h)
    (hclient : ∀ creds seg, since loginIn h = some (creds, seg) → client = builtClient creds seg)
    (hfolder : ∀ creds seg c, since loginIn h = some (creds, seg) → client = some c →
      ∀ uid, p.remoteCwdUid = some uid → Obtained c seg uid)
    (hdirs : ∀ creds seg c, since loginIn h = some (creds, seg) → client = some c →
      Replaced c seg t p) : { v with remotePane := q, client : View }.Isolated (h ++ t) where
  calls := hrefreshed.fine hcalls hclient hfolder
  client creds seg hs := by
    obtain ⟨before, hbefore, rfl⟩ := since_settled hrefreshed.settled hs
    rw [builtClient_append hrefreshed.settled]
    exact hclient creds before hbefore
  owned creds seg c hs hc := by
    obtain ⟨before, hbefore, rfl⟩ := since_settled hrefreshed.settled hs
    have hc : client = some c := hc
    rw [hc] at hrefreshed
    exact hrefreshed.owned (hfolder creds before c hbefore hc) (hdirs creds before c hbefore hc)

theorem quiet_unused {e : Event ui} (he : isQuiet e = true) :
    loginIn e = none ∧ usedClient e.call = none := by
  obtain ⟨call, a⟩ := e
  cases call with
  | myFilesRoot _ => cases he
  | folderChildren _ _ => cases he
  | spawnUpload _ _ _ => cases he
  | spawnDownload _ _ _ _ => cases he
  | authFinished =>
    refine ⟨?_, rfl⟩
    cases a with
    | none => rfl
    | some outcome =>
      cases outcome with
      | accepted creds => cases he
      | refused msg => rfl
      | panicked msg => rfl
  | _ => exact ⟨rfl, rfl⟩

/-- what is done after a login -/
theorem login_since (creds : LoginCredentials) (ht : ∀ e ∈ t, loginIn e = none) (h : Trace ui) :
    since loginIn (h ++ acceptance creds :: t) = some (creds, t) := since_cons_append rfl ht

theorem login_fine (creds : LoginCredentials) (ht : ∀ e ∈ t, isQuiet e = true)
    (hcalls : AllAfter Fine h) : AllAfter Fine (h ++ acceptance creds :: t) := by
  refine hcalls.append fun e he _ => fine_unused ?_
  rcases List.mem_cons.mp he with rfl | he
  · rfl
  · exact (quiet_unused (ht e he)).2

theorem NoClient.builtClient {creds : LoginCredentials} (ht : NoClient (loginMade creds) t) :
    builtClient creds t = none := by
  cases ht <;> simp [ProtonDrive.builtClient, latest, newSession, newAccount, loginMade]

theorem clientCalls_builtClient (creds : LoginCredentials) (s : SessionRef)
    (userId keyPassword : String) (a : Nat) :
    builtClient creds (clientCalls (loginMade creds) s userId keyPassword a) =
      some { session := s, account := a } := by
  simp [builtClient, clientCalls, latest, newSession, newAccount, loginMade]

theorem Does.isolated (hdoes : Does v t v') (hv : v.Isolated h) (hok : SwitchOk v t)
    (hnone : v.client = none → v.remotePane.entries = [] ∧ v.remotePane.remoteCwdUid = none) :
    v'.Isolated (h ++ t) := by
  induction hdoes generalizing h with
  | rests ht _ hq =>
    have hidle := hv.unused (fun e he => settled_idle (ht e he)) fun e he => unused_idle (ht e he)
    refine ⟨hidle.calls, hidle.client, ?_⟩
    intro creds seg c hs hc
    exact hq.owned (hidle.owned creds seg c hs hc)
  | reads p answer =>
    have hread := hv.unused (t := [⟨.readDir p.cwd, answer⟩])
      (by simpa using ⟨rfl, fun _ => rfl, fun _ => rfl⟩) (by simp [usedClient])
    exact ⟨hread.calls, hread.client, hread.owned⟩
  | lists hp hrefreshed =>
    refine View.isolated_refreshed hrefreshed hv.calls hv.client ?_ ?_
    · intro creds seg c hs hc
      exact hp.folder_owned (hv.owned creds seg c hs hc)
    · intro creds seg c hs hc
      right
      rw [hp.same.2]
      exact (hv.owned creds seg c hs hc).dirs
  | uploads localPath hc hparent =>
    refine hv.used rfl hc fun seg ho uid huid => ?_
    cases huid
    exact ho.folder _ hparent
  | downloads hc herror hentry _ hnode =>
    refine hv.used rfl hc fun seg ho uid huid => ?_
    cases huid
    exact ho.shown herror _ (List.mem_of_getElem? hentry) _ hnode
  | noClient creds msg ht =>
    have hquiet := ht.quiet (loginMade_quiet creds)
    have hsince := login_since creds fun e he => (quiet_unused (hquiet e he)).1
    have hclient : v.client = none := by
      rcases hok _ (hsince []) with hclient | ⟨hbuilt, _⟩
      · exact hclient
      · rw [ht.builtClient] at hbuilt
        cases hbuilt
    refine ⟨login_fine creds hquiet hv.calls, ?_, ?_⟩
    · intro creds' seg hs
      rw [hsince] at hs
      cases hs
      rw [ht.builtClient]
      exact hclient
    · intro creds' seg c _ hc
      rw [hclient] at hc
      cases hc
  | @newClient s userId keyPassword a t q creds hrefreshed =>
    have hquiet := clientCalls_quiet (loginMade_quiet creds) s userId keyPassword a
    have hwhole : since loginIn (acceptance creds ::
        (clientCalls (loginMade creds) s userId keyPassword a ++ t)) =
        some (creds, clientCalls (loginMade creds) s userId keyPassword a ++ t) := by
      refine login_since creds ?_ []
      intro e he
      rcases List.mem_append.mp he with he | he
      · exact (quiet_unused (hquiet e he)).1
      · exact (hrefreshed.settled e he).login
    have hfree : v.remotePane.remoteCwdUid = none ∧
        (t.any isListed = true ∨ ∀ entry ∈ v.remotePane.entries, entry.isDir = false) := by
      rcases hok _ hwhole with hclient | ⟨_, hcwd, hlisted⟩
      · obtain ⟨hentries, hcwd⟩ := hnone hclient
        refine ⟨hcwd, .inr ?_⟩
        rw [hentries]
        exact List.forall_mem_nil _
      · exact ⟨hcwd, hlisted⟩
    rw [← List.cons_append, ← List.append_assoc]
    have hsince : ∀ creds' seg, since loginIn (h ++ acceptance creds ::
        clientCalls (loginMade creds) s userId keyPassword a) = some (creds', seg) →
        creds' = creds ∧ seg = clientCalls (loginMade creds) s userId keyPassword a := by
      intro creds' seg hs
      rw [login_since creds fun e he => (quiet_unused (hquiet e he)).1] at hs
      cases hs
      exact ⟨rfl, rfl⟩
    refine View.isolated_refreshed hrefreshed (login_fine creds hquiet hv.calls) ?_ ?_ ?_
    · intro creds' seg hs
      obtain ⟨rfl, rfl⟩ := hsince creds' seg hs
      exact (clientCalls_builtClient ..).symm
    · intro _ _ _ _ _ uid huid
      rw [hfree.1] at huid
      cases huid
    · intro _ _ _ _ _
      rcases hfree.2 with hlisted | hfiles
      · exact .inl hlisted
      · right
        intro entry he hdir
        rw [hfiles entry he] at hdir
        cases hdir
  | @idle e t v' he _ ih =>
    rw [List.append_cons]
    apply ih
    · apply hv.unused
      · simpa using settled_idle he
      · simpa using unused_idle he
    · intro login hlogin
      apply hok login
      show since loginIn ([e] ++ t) = some login
      rw [since_append, Option.mem_def.mp hlogin]
      rfl

/-- without a client nothing is listed or transferred before the next login -/
theorem Does.refused (hdoes : Does v t v') (hclient : v.client = none)
    (ht : ∀ e ∈ t, loginIn e = none) : ∀ e ∈ t, usedClient e.call = none := by
  induction hdoes with
  | rests hidle _ _ => exact fun e he => unused_idle (hidle e he)
  | reads p answer => simp [usedClient]
  | lists _ hrefreshed =>
    intro e he
    obtain ⟨c, hc, _⟩ := hrefreshed.calls e he
    rw [hclient] at hc
    cases hc
  | uploads _ hc _ =>
    rw [hclient] at hc
    cases hc
  | downloads hc _ _ _ _ =>
    rw [hclient] at hc
    cases hc
  | noClient creds _ _ => cases ht _ List.mem_cons_self
  | newClient creds _ => cases ht _ List.mem_cons_self
  | idle he _ ih =>
    intro e' he'
    rcases List.mem_cons.mp he' with rfl | he'
    · exact unused_idle he
    · exact ih (fun e he => ht e (List.mem_cons_of_mem _ he)) e' he'

end

/-! ## every run -/

section
variable {app app' : App} {h t u : Trace ui} {v : View}

theorem View.isolated_of_no_login (ht : ∀ e ∈ t, loginIn e = none) : v.Isolated t where
  calls := by
    intro before e after heq creds seg hs
    rw [since_eq_none] at hs
    · cases hs
    · intro e' he'
      apply ht
      rw [heq]
      exact List.mem_append_left _ he'
  client creds seg hs := by
    rw [since_eq_none ht] at hs
    cases hs
  owned creds seg c hs := by
    rw [since_eq_none ht] at hs
    cases hs

theorem start_isolated (hrun : Runs App.start t (.done app)) : app.view.Isolated t := by
  obtain ⟨stored, dir, answer, t', rfl, hresumes⟩ := start_resumes hrun
  apply View.isolated_of_no_login
  have hrest : ∀ e ∈ t', loginIn e = none := by
    generalize app.view = v at hresumes
    cases hresumes with
    | not => exact List.forall_mem_nil _
    | noClient msg hnone => exact fun e he => (quiet_unused (hnone.quiet sessionResumed_quiet e he)).1
    | @newClient s userId keyPassword a t q hrefreshed =>
      intro e he
      rcases List.mem_append.mp he with he | he
      · exact (quiet_unused (clientCalls_quiet sessionResumed_quiet s userId keyPassword a e he)).1
      · exact (hrefreshed.settled e he).login
  simpa [loginIn] using hrest

theorem AppReached.isolated (happ : AppReached (fun i app t => SwitchOk app.view t) app h) :
    app.view.Isolated h := by
  have hboth : app.view.Coherent h ∧ app.view.Isolated h := by
    refine Reachable.invariant (I := fun h app => app.view.Coherent h ∧ app.view.Isolated h) happ ?_ ?_
    · intro app h hrun
      exact ⟨start_coherent hrun, start_isolated hrun⟩
    · intro i app app' h t hv hrun hok
      obtain ⟨hcoherent, hisolated⟩ := hv
      have hdoes := App.step_does hrun
      exact ⟨hdoes.coherent hcoherent,
        hdoes.isolated hisolated hok fun hnone => (hcoherent.noClient hnone).2⟩
  exact hboth.2

theorem transfer_refused (hclient : app.client = none) {a : Action}
    (ha : a = .upload ∨ a = .download) (hrun : Runs (App.step (.action a) app) u (.done app')) :
    app'.status = some notAuthenticated := by
  rcases ha with rfl | rfl
  · replace hrun : Runs (startUpload app) u (.done app') := hrun
    rw [startUpload, hclient] at hrun
    obtain ⟨_, rfl⟩ := pure_ui_done hrun
    rfl
  · replace hrun : Runs (startDownload app) u (.done app') := hrun
    rw [startDownload, hclient] at hrun
    obtain ⟨_, rfl⟩ := pure_ui_done hrun
    rfl

/-- if no login leaves anything of the account before, all that is done after a login is done with its
client, on nodes obtained through it, and nothing is done if it has none -/
theorem switch_isolated (happ : AppReached (fun i app t => SwitchOk app.view t) app h) :
    app.Isolated h where
  calls := happ.isolated.calls
  client := happ.isolated.client
  refused creds seg hs hbuilt i u app' hrun hu := by
    have hclient : app.client = none := (happ.isolated.client creds seg hs).trans hbuilt
    refine ⟨(App.step_does hrun).refused hclient hu, ?_⟩
    rintro (rfl | rfl)
    · exact transfer_refused hclient (.inl rfl) hrun
    · exact transfer_refused hclient (.inr rfl) hrun

end

/-- the listings of `docs` -/
def listsDocs : Event ui → Bool
  | ⟨.folderChildren _ uid, _⟩ => uid.nodeId = "1"
  | _ => false

/-- every login leads to a client. The root of the first account is lost once its folder `docs` was
listed; the files of the second account are others -/
def accountsScene (h : Trace ui) : (c : UiCall) → ui.Ans c
  | .loginSession creds =>
    .ok { id := (h.filter isLoginSession).length + 1, keyPassword := creds.keyPassword }
  | .bootstrapAccount session _ _ => .ok session.id
  | .myFilesRoot client =>
    if client.session.id = 1 then
      if h.any listsDocs then .error (.network "connection reset")
      else .ok (sceneNode "root" "root" .folder)
    else .ok (sceneNode "3" "root" .folder)
  | .folderChildren client uid =>
    if client.session.id = 1 then scene h (.folderChildren client uid)
    else [.ok (sceneNode "4" "photos" .folder), .ok (sceneNode "5" "c.txt" .file)]
  | c => scene h c

/-- the first account opens `docs` and cannot go back, and the second logs in and opens `photos` -/
def leavesDocs : List Input := [.readKey, .readKey, .checkAuth, .action .togglePane, .action .enter,
  .action .parent, .action .login, .readKey, .readKey, .checkAuth, .action .enter]

/-- `photos` is shown, and both accounts have been asked for their files -/
def showsPhotos (x : App × Trace ui) : Bool :=
  (x.2.filterMap loginIn).map (fun creds => creds.username) = ["first", "second"] ∧
    (since loginIn x.2).isSome ∧
    (x.2.filterMap fun e => (givenUid e.call).map fun uid => uid.nodeId) = ["root", "1", "3", "4"] ∧
    x.1.panes.remotePane.remoteCwdUid = some { volumeId := "v", nodeId := "4" } ∧ x.1.client.isSome

theorem switch_isolated_twoAccounts : ∃ (app : App) (h : Trace ui) (creds : LoginCredentials)
    (t : Trace ui),
    (h.filterMap loginIn).map (fun creds => creds.username) = ["first", "second"] ∧
    since loginIn h = some (creds, t) ∧
    (h.filterMap fun e => (givenUid e.call).map fun uid => uid.nodeId) = ["root", "1", "3", "4"] ∧
    app.panes.remotePane.remoteCwdUid = some { volumeId := "v", nodeId := "4" } ∧
    app.client.isSome ∧ app.Isolated h := by
  have hafter : (play accountsScene (fun i app t => decide (SwitchOk app.view t)) App.start App.step
      leavesDocs).any showsPhotos = true := by decide +kernel
  obtain ⟨⟨app, h⟩, hplay, hshows⟩ := (Option.any_eq_true _ _).mp hafter
  obtain ⟨hlogins, hlogin, hasked, huid, hclient⟩ := of_decide_eq_true hshows
  obtain ⟨⟨creds, t⟩, hsince⟩ := Option.isSome_iff_exists.mp hlogin
  have happ : AppReached (fun i app t => SwitchOk app.view t) app h :=
    (play_reachable hplay).mono fun i app t hok => of_decide_eq_true hok
  exact ⟨app, h, creds, t, hlogins, hsince, hasked, huid, hclient, switch_isolated happ⟩

/-- a second login that leads to no session, and a look at the files -/
def twoLogins : List Input := [.readKey, .readKey, .checkAuth, .action .login, .readKey, .readKey,
  .checkAuth, .action .togglePane, .action .refresh]

/-- the last call is made with a client, and the last login has none -/
def listsForFirst (x : App × Trace ui) : Bool :=
  (since loginIn x.2.dropLast).any (fun login => login.1.username = "second" ∧
    builtClient login.1 login.2 = none) ∧
  x.2.getLast?.any fun e => (usedClient e.call).isSome

theorem first_client_lists : ¬ ∀ app h, AppReached (fun _ _ _ => True) app h → app.Isolated h := by
  intro hall
  have hafter : (sceneAfter (fun _ _ _ => true) twoLogins).any listsForFirst = true := by
    decide +kernel
  obtain ⟨⟨app, h⟩, hplay, hlists⟩ := (Option.any_eq_true _ _).mp hafter
  obtain ⟨hlogin, hcall⟩ := of_decide_eq_true hlists
  obtain ⟨⟨creds, t⟩, hsince, hnone⟩ := (Option.any_eq_true _ _).mp hlogin
  obtain ⟨e, he, hused⟩ := (Option.any_eq_true _ _).mp hcall
  obtain ⟨c, hc⟩ := Option.isSome_iff_exists.mp hused
  have happ : AppReached (fun _ _ _ => True) app h :=
    (play_reachable hplay).mono fun _ _ _ _ => trivial
  have hlast : h = h.dropLast ++ e :: [] := (List.dropLast_append_getLast? e he).symm
  have hbuilt := ((hall app h happ).calls _ e [] hlast creds t hsince c hc).1
  rw [(of_decide_eq_true hnone).2] at hbuilt
  cases hbuilt

end ProtonDrive
