import ProtonDrive.Core.Listing
import ProtonDrive.Events.Delivery

/-!
# The uid of a node, in the listing and in the events

The listing puts the id of the share into `NodeUid.volumeId`, the event feed the id of the volume.

* `AccountAnswers`        the answers of an account whose My Files share has the id `s` and lies in the
                          volume `v`;
* `Listed`                the uids that the root of My Files and listings below it expose;
* `event_uid_agrees`      an event about a listed link names the listed node, by its uid and by the paths
                          of its link and of its children, exactly if `s = v`.
-/

set_option linter.unusedVariables false

namespace ProtonDrive
open Encoding Effects Api

section
variable (K : Crates)

structure AccountAnswers (s v : String) (tr : Trace host) : Prop where
  myFiles : ∀ resp r, ⟨.requestJson (.bare .get myFilesPath none), .ok resp⟩ ∈ tr →
    K.Envelopes Shares.GetMyFilesResponse.ofJson resp.body r →
    r.share.shareId = s ∧ r.volume.volumeId = v
  share : ∀ resp r, ⟨.requestJson (.bare .get ("/drive/shares/" ++ s) none), .ok resp⟩ ∈ tr →
    K.Envelopes Shares.GetShareResponse.ofJson resp.body r → r.share.volumeId = v

inductive Listed (client : ProtonDriveClient) (s v : String) : NodeUid → Prop
  | root {tr n} (hruns : Runs (myFilesRoot K).run tr (.done (.ok n)))
      (hanswers : AccountAnswers K s v tr) : Listed client s v n.uid
  | child {fuel parent pageSize tr nodes n} (hparent : Listed client s v parent)
      (hruns : Runs (fetchFolderChildren K client fuel parent pageSize).run tr (.done (.ok nodes)))
      (hn : n ∈ nodes) : Listed client s v n.uid

end

/-- the uids are one, and so are the paths under which the node and its children are asked for -/
structure SameNode (uid listed : NodeUid) : Prop where
  same : uid = listed
  link : linkPath uid = linkPath listed
  children : childrenPath uid = childrenPath listed

section
variable {K : Crates} {client : ProtonDriveClient} {s v : String} {tr : Trace host}

/-! ## the listing -/

theorem childrenPages_volume {parent : NodeUid} {pageSize : Nat} {key : Option PrivateKey}
    {fuel page : Nat} {nodes : List MaybeNode}
    (h : Runs (childrenPages K client parent pageSize key fuel page).run tr (.done (.ok nodes))) :
    ∀ n ∈ nodes, n.uid.volumeId = parent.volumeId := by
  induction fuel generalizing page tr nodes with
  | zero => cases h
  | succ fuel ih =>
    obtain ⟨resp, t₁, t₂, rfl, _, h⟩ := h.bindE_ok
    have hpage : ∀ n ∈ resp.links.map (childNode K client parent key),
        n.uid.volumeId = parent.volumeId := by
      intro n hn
      obtain ⟨link, _, rfl⟩ := List.mem_map.mp hn
      rfl
    by_cases hmore : resp.more = 0
    · rw [if_pos hmore] at h
      obtain ⟨_, rfl⟩ := pure_ok h
      exact hpage
    · rw [if_neg hmore] at h
      obtain ⟨rest, t₃, t₄, rfl, hrest, h⟩ := h.bindE_ok
      obtain ⟨_, rfl⟩ := pure_ok h
      intro n hn
      rcases List.mem_append.mp hn with hn | hn
      · exact hpage n hn
      · exact ih hrest n hn

theorem Listed.volume {uid : NodeUid} (h : Listed K client s v uid) : uid.volumeId = s := by
  induction h with
  | @root tr n hruns hanswers =>
    obtain ⟨resp, t₁, t₂, rfl, h₁, h⟩ := hruns.bindE_ok
    obtain ⟨_, rfl⟩ := pure_ok h
    obtain ⟨http, rfl, henv⟩ := getJson_ok h₁
    exact (hanswers.myFiles http resp (List.mem_append_left _ List.mem_cons_self) henv).1
  | child hparent hruns hn ih =>
    obtain ⟨key, t₁, t₂, rfl, _, h⟩ := hruns.bindE_ok
    exact (childrenPages_volume h _ hn).trans ih

/-! ## the events -/

/-- a node event is a mapped event of the volume -/
def OfVolume (v : String) : HostCall → Prop
  | .onEvent (.node uid kind) => ∃ entry, mapVolumeEvent v entry = .node uid kind
  | _ => True

theorem only_attempt {A : HostCall → Prop} {α : Type} {p : Sdk α} (hp : Only (S := host) A p.run) :
    Only (S := host) A (attempt p).run := by
  refine Only.bind hp fun r => ?_
  rcases r with (e | msg) | a <;> trivial

theorem only_pollDue {A : HostCall → Prop} (hsleep : ∀ secs, A (.sleepOrCancelled secs))
    (hcancelled : ∀ token, A (.isCancelled token)) (retry : Nat) :
    Only (S := host) A (pollDue retry).run := by
  refine Only.bindE ⟨hsleep _, fun _ => trivial⟩ fun woken => Only.ite (fun _ => trivial) fun _ => ?_
  exact Only.bindE ⟨hcancelled _, fun _ => trivial⟩ fun _ => trivial

theorem only_drain (fuel : Nat) (cursor : String) :
    Only (S := host) (OfVolume v) (drainVolumeEvents K v fuel cursor).run := by
  refine (within_drain (Q := fun _ => True) (fun _ => trivial) (fun _ => trivial) fun ev hev => ?_).1
  cases hev with
  | mapped entry => exact ⟨entry, rfl⟩
  | refresh => trivial
  | forward c => trivial

theorem only_eventLoop (fuel : Nat) (cursor : String) (retry : Nat) :
    Only (S := host) (OfVolume v) (eventLoop K v fuel cursor retry).run := by
  induction fuel generalizing cursor retry with
  | zero => trivial
  | succ fuel ih =>
    refine Only.bindE (only_pollDue (fun _ => trivial) (fun _ => trivial) retry) fun due => ?_
    refine Only.ite (fun _ => ?_) fun _ => trivial
    refine Only.bindE (only_attempt (only_drain fuel cursor)) fun drained => ?_
    match drained with
    | .ok outcome => exact Only.bindE ⟨trivial, fun _ => trivial⟩ fun _ => ih _ _
    | .error (.notFound _) => exact ⟨trivial, fun _ => trivial⟩
    | .error (.network _) | .error (.rateLimited _) | .error (.validation _) | .error (.integrity _)
    | .error (.decryption _) | .error (.verification _) | .error (.nodeWithSameNameExists _)
    | .error .revisionDraftConflict | .error (.integrityCheckFailed _)
    | .error (.protocolViolation _) | .error (.notImplemented _) | .error (.crypto _)
    | .error (.cache _) | .error (.internal _) => exact ih _ _

theorem only_spawn (fuel : Nat) :
    Only (S := host) (OfVolume v) (spawnVolumeEventLoop K v fuel).run := by
  have hstart : Only (S := host) (OfVolume v) (resolveStartCursor K v).run :=
    (within_resolveStartCursor (Q := fun _ => True) (fun _ => trivial) trivial trivial
      fun _ => trivial).1
  refine Only.bindE (only_attempt hstart) fun start => ?_
  cases start with
  | ok cursor => exact only_eventLoop fuel cursor 0
  | error e => trivial

/-- a call that only asks for an enveloped record -/
def IsGet : HostCall → Prop
  | .requestJson _ => True
  | _ => False

theorem subscribe_events {fuel : Nat} {o : Outcome (Except Fault Unit)}
    (hruns : Runs (subscribeDriveEvents K fuel).run tr o) (hanswers : AccountAnswers K s v tr)
    {uid : NodeUid} {kind : NodeEventKind} (hevent : ⟨.onEvent (.node uid kind), ()⟩ ∈ tr) :
    ∃ entry, mapVolumeEvent v entry = .node uid kind := by
  have hmyFiles : Only (S := host) IsGet
      (apiGet K "GetMyFilesResponse" Shares.GetMyFilesResponse.ofJson myFilesPath).run :=
    (within_getJson (Q := fun _ => True) (fun _ => trivial) trivial).1
  have hshare : ∀ shareId, Only (S := host) IsGet (resolveShareVolume K shareId).run := fun shareId =>
    Only.bindE (within_getJsonOr (Q := fun _ => True) (fun _ => trivial) trivial).1 fun _ => trivial
  obtain ⟨myFiles, t₁, t₂, rfl, h₁, hrest, hevent₂⟩ := hruns.reach hmyFiles hevent id
  obtain ⟨volumeId, t₃, t₄, rfl, h₂, hloop, hevent₄⟩ := hrest.reach (hshare _) hevent₂ id
  obtain ⟨http, rfl, henv⟩ := getJson_ok h₁
  have hs := (hanswers.myFiles http myFiles (List.mem_append_left _ List.mem_cons_self) henv).1
  obtain ⟨resp, t₅, t₆, rfl, h₃, hpure⟩ := h₂.bindE_ok
  obtain ⟨_, rfl⟩ := pure_ok hpure
  obtain ⟨http', rfl, henv'⟩ := getJsonOr_ok h₃
  have hv : resp.share.volumeId = v := by
    refine hanswers.share http' resp ?_ henv'
    rw [← hs]
    exact List.mem_append_right _ (List.mem_append_left _ (List.mem_append_left _ List.mem_cons_self))
  rw [hv] at hloop
  exact hloop.only (only_spawn fuel) _ hevent₄

/-! ## the two together -/

theorem append_middle {head a b tail : String} (h : head ++ (a ++ tail) = head ++ (b ++ tail)) :
    a = b := by
  have h' := congrArg String.toList h
  simp only [String.toList_append] at h'
  exact String.toList_injective (List.append_cancel_right (List.append_cancel_left h'))

theorem linkPath_volume {a b l : String} (h : linkPath ⟨a, l⟩ = linkPath ⟨b, l⟩) : a = b := by
  unfold linkPath at h
  simp only [String.append_assoc] at h
  exact append_middle h

theorem childrenPath_volume {a b l : String} (h : childrenPath ⟨a, l⟩ = childrenPath ⟨b, l⟩) :
    a = b := by
  unfold childrenPath at h
  simp only [String.append_assoc] at h
  exact append_middle h

/-- an event about a listed link names the listed node if and only if the My Files share and its
volume have the same id -/
theorem event_uid_agrees {listed : NodeUid} (hlisted : Listed K client s v listed) {fuel : Nat}
    {o : Outcome (Except Fault Unit)} (hruns : Runs (subscribeDriveEvents K fuel).run tr o)
    (hanswers : AccountAnswers K s v tr) {uid : NodeUid} {kind : NodeEventKind}
    (hevent : ⟨.onEvent (.node uid kind), ()⟩ ∈ tr) (hlink : uid.nodeId = listed.nodeId) :
    (SameNode uid listed ↔ s = v) ∧ (linkPath uid = linkPath listed → s = v) ∧
      (childrenPath uid = childrenPath listed → s = v) := by
  obtain ⟨entry, hentry⟩ := subscribe_events hruns hanswers hevent
  have huid : uid = ⟨v, listed.nodeId⟩ := by
    rw [← hlink, ← (DriveEvent.node.inj hentry).1]
  have hlisted : listed = ⟨s, listed.nodeId⟩ := by rw [← hlisted.volume]
  rw [huid, hlisted]
  refine ⟨⟨fun h => (congrArg NodeUid.volumeId h.same).symm, ?_⟩,
    fun h => (linkPath_volume h).symm, fun h => (childrenPath_volume h).symm⟩
  rintro rfl
  exact ⟨rfl, rfl, rfl⟩

end

/-! ## a small My Files -/

def smallMyFiles : Json :=
  .obj [("Code", .num 1000), ("Volume", .obj [("VolumeID", .str "v")]),
    ("Share", .obj [("ShareID", .str "s"), ("Key", .str "shr"), ("Passphrase", .str ""),
      ("PassphraseSignature", .str ""), ("AddressID", .str "a")]),
    ("Link", .obj [("Link", .obj [("LinkID", .str "root"), ("Type", .num 1), ("State", .num 1),
      ("Name", .str ""), ("CreateTime", .num 0), ("ModifyTime", .num 0), ("NodeKey", .str "dir"),
      ("NodePassphrase", .str ""), ("NodePassphraseSignature", .str "")])])]

def smallChildren : Json :=
  .obj [("Code", .num 1000), ("Links", .arr [.obj [("LinkID", .str "a"), ("ParentLinkID", .str "root"),
    ("Type", .num 2), ("Name", .str ""), ("State", .num 1), ("Size", .num 0), ("CreateTime", .num 0),
    ("ModifyTime", .num 0), ("NodeKey", .str "node"), ("NodePassphrase", .str ""),
    ("NodePassphraseSignature", .str "")]])]

/-- an event about the link `a` -/
def smallPage : Events.GetVolumeEventsResponse := { firstPage with more := false }

def identityDocs : List Json := [smallMyFiles, smallShare, smallChildren, pageDoc smallPage]

def identityCrates : Crates := smallCrates identityDocs

theorem identityDocs_nodup : (identityDocs.map textOf).Nodup := by decide +kernel

def docResponse (j : Json) : JsonResponse := { status := 200, headers := [], body := textOf j }

/-- the answer `j` to a request for `path` -/
def got (path : String) (j : Json) : Event host :=
  ⟨.requestJson (.bare .get path none), .ok (docResponse j)⟩

theorem smallMyFiles_read : ∃ r, identityCrates.Envelopes Shares.GetMyFilesResponse.ofJson
    (docResponse smallMyFiles).body r ∧ r.share.shareId = "s" ∧ r.volume.volumeId = "v" ∧
      r.link.link.linkId = "root" :=
  ⟨_, smallCrates_envelopes identityDocs_nodup (by simp [identityDocs]) rfl, rfl, rfl, rfl⟩

theorem smallShare_read : ∃ r, identityCrates.Envelopes Shares.GetShareResponse.ofJson
    (docResponse smallShare).body r ∧ r.share.volumeId = "v" :=
  ⟨_, smallCrates_envelopes identityDocs_nodup (by simp [identityDocs]) rfl, rfl⟩

theorem smallChildren_read : ∃ link, link.linkId = "a" ∧
    identityCrates.Envelopes Nodes.GetChildrenResponse.ofJson (docResponse smallChildren).body
      { links := [link], more := 0 } :=
  ⟨_, rfl, smallCrates_envelopes identityDocs_nodup (by simp [identityDocs]) rfl⟩

theorem smallPage_read : identityCrates.Envelopes Events.GetVolumeEventsResponse.ofJson
    (docResponse (pageDoc smallPage)).body smallPage :=
  smallCrates_envelopes identityDocs_nodup (by simp [identityDocs]) rfl

/-- the path of an answered request, and the body of the answer -/
def answerOf : Event host → Option (String × Bytes)
  | ⟨.requestJson req, .ok resp⟩ => some (req.path, resp.body)
  | _ => none

def smallAnswers : List (String × Bytes) :=
  [(myFilesPath, textOf smallMyFiles), ("/drive/shares/s", textOf smallShare),
    (eventsPath "v" "0", textOf (pageDoc smallPage))]

theorem answers_small {tr : Trace host} (h : tr.filterMap answerOf ⊆ smallAnswers) :
    AccountAnswers identityCrates "s" "v" tr := by
  have hpath : ∀ {path : String} {body : Bytes}, (path, body) ∈ smallAnswers →
      (path = myFilesPath → body = textOf smallMyFiles) ∧
        (path = "/drive/shares/s" → body = textOf smallShare) := by
    intro path body hmem
    simp only [smallAnswers, List.mem_cons, List.not_mem_nil, or_false, Prod.mk.injEq] at hmem
    rcases hmem with ⟨rfl, rfl⟩ | ⟨rfl, rfl⟩ | ⟨rfl, rfl⟩
    · exact ⟨fun _ => rfl, fun hne => absurd hne (by decide)⟩
    · exact ⟨fun hne => absurd hne (by decide), fun _ => rfl⟩
    · exact ⟨fun hne => absurd hne (by decide), fun hne => absurd hne (by decide)⟩
  constructor
  · intro resp r hmem henv
    obtain ⟨r', henv', hs, hv, _⟩ := smallMyFiles_read
    have hbody := (hpath (h (List.mem_filterMap.mpr ⟨_, hmem, rfl⟩))).1 rfl
    rw [hbody] at henv
    rw [envelopes_unique henv henv']
    exact ⟨hs, hv⟩
  · intro resp r hmem henv
    obtain ⟨r', henv', hv⟩ := smallShare_read
    have hbody := (hpath (h (List.mem_filterMap.mpr ⟨_, hmem, rfl⟩))).2 rfl
    rw [hbody] at henv
    rw [envelopes_unique henv henv']
    exact hv

theorem apiGet_runs {K : Crates} {α : Type} {type : String} {dec : Json → Option α} {path : String}
    {a : α} {j : Json} (h : K.Envelopes dec (docResponse j).body a) :
    Runs (apiGet K type dec path).run [got path j] (.done (.ok a)) := getJsonOr_runs h

theorem apiGetWithQuery_runs {K : Crates} {α : Type} {type : String} {dec : Json → Option α}
    {path : String} {query : List (String × String)} {a : α} {resp : JsonResponse}
    (h : K.Envelopes dec resp.body a) :
    Runs (apiGetWithQuery K type dec path query).run
      [⟨.requestJson { method := .get, path, query, headers := [], body := none }, .ok resp⟩]
      (.done (.ok a)) := by
  obtain ⟨error, henv⟩ := h
  have hrest : Runs (ofExcept (fun e => Error.internal ("JSON parse: " ++ e))
      (K.fromSlice ("ResponseEnvelope<" ++ type ++ ">") (ResponseEnvelope.ofJson dec) resp.body) >>=
        fun env => require (env.code = CODE_OK) (mapApiError env.code env.error) >>= fun _ =>
          pure env.inner : Sdk α).run [] (.done (.ok a)) := by
    rw [fromSlice_of_some henv]
    exact .ret _
  exact Runs.bindE_one (.call (.ret _)) hrest

/-- the key of a folder whose share cannot be fetched -/
theorem unresolved_runs (parent : NodeUid) :
    Runs (attempt (resolveFolderNodeKey identityCrates smallClient parent)).run
      [⟨.requestJson (.bare .get ("/drive/shares/" ++ parent.volumeId) none), .error (.network "")⟩]
      (.done (.ok (.error (.network "")))) := attempt_of_error (.call (.ret _))

/-- the root of My Files, and the link `a` in it -/
theorem smallListing : Listed identityCrates smallClient "s" "v" { volumeId := "s", nodeId := "a" } := by
  obtain ⟨r, henv, hs, hv, hroot⟩ := smallMyFiles_read
  have hrootRuns : Runs (myFilesRoot identityCrates).run [got myFilesPath smallMyFiles]
      (.done (.ok (linkToMaybeNode r.link.intoLink r.share.shareId (some "root")))) :=
    Runs.bindE_one (apiGet_runs henv) (.ret _)
  have hlisted : Listed identityCrates smallClient "s" "v" { volumeId := "s", nodeId := "root" } := by
    have h : Listed identityCrates smallClient "s" "v" _ := Listed.root hrootRuns
      (answers_small (List.cons_subset.mpr ⟨List.mem_cons_self, List.nil_subset _⟩))
    rwa [linkToMaybeNode_uid, hs, show r.link.intoLink.linkId = "root" from hroot] at h
  obtain ⟨link, hlink, hchildren⟩ := smallChildren_read
  have hchildRuns : Runs (fetchFolderChildren identityCrates smallClient 1 ⟨"s", "root"⟩ 150).run _
      (.done (.ok [childNode identityCrates smallClient ⟨"s", "root"⟩ none link])) :=
    Runs.bindE_one (unresolved_runs _)
      (Runs.bindE_one (apiGetWithQuery_runs
        (hchildren : identityCrates.Envelopes _ (docResponse smallChildren).body _)) (.ret _))
  have h := Listed.child hlisted hchildRuns (List.mem_singleton_self _)
  unfold childNode at h
  rwa [linkToMaybeNode_uid, hlink] at h

/-- a subscription, up to the event about the link `a` -/
def smallFeed : Trace host :=
  got myFilesPath smallMyFiles :: got "/drive/shares/s" smallShare ::
    firstLife (got (eventsPath "v" "0") (pageDoc smallPage) :: told "v" smallPage.events)

theorem smallFeed_runs : Runs (subscribeDriveEvents identityCrates 2).run smallFeed .running := by
  obtain ⟨r, henv, hs, hv, hroot⟩ := smallMyFiles_read
  obtain ⟨r', henv', hv'⟩ := smallShare_read
  have hshare : Runs (resolveShareVolume identityCrates "s").run [got "/drive/shares/s" smallShare]
      (.done (.ok "v")) := by
    rw [← hv']
    exact Runs.bindE_one (getJsonOr_runs henv') (.ret _)
  have hdrain : Runs (drainVolumeEvents identityCrates "v" 1 "0").run
      (got (eventsPath "v" "0") (pageDoc smallPage) :: told "v" smallPage.events)
      (.done (.ok { cursor := "1", refreshed := false })) :=
    drain_page smallPage_read (drainPage_last rfl (List.cons_ne_nil _ _) rfl)
  have hloop : Runs (spawnVolumeEventLoop identityCrates "v" 2).run
      (firstLife (got (eventsPath "v" "0") (pageDoc smallPage) :: told "v" smallPage.events)) .running :=
    spawn_started resolve_stored (eventLoop_draining (hdrain.take _))
  refine Runs.bindE_one (apiGet_runs henv) ?_
  rw [hs]
  exact Runs.bindE_one hshare hloop

theorem smallFeed_answers : AccountAnswers identityCrates "s" "v" smallFeed := by
  have hanswers : smallFeed.filterMap answerOf = smallAnswers := rfl
  exact answers_small (hanswers ▸ List.Subset.refl _)

theorem smallFeed_event :
    (⟨.onEvent (.node { volumeId := "v", nodeId := "a" } .created), ()⟩ : Event host) ∈ smallFeed :=
  List.mem_of_getElem? (i := 6) rfl

/-- the event about the link `a` names no node of the listing -/
theorem event_uid_agrees_small :
    ¬SameNode { volumeId := "v", nodeId := "a" } { volumeId := "s", nodeId := "a" } := fun h =>
  absurd ((event_uid_agrees smallListing smallFeed_runs smallFeed_answers smallFeed_event rfl).1.mp h)
    (by decide)

/-- the uid of an event is not always that of the listed node -/
theorem event_uid_differs :
    ¬∀ (K : Crates) (client : ProtonDriveClient) (s v : String) (tr : Trace host) (fuel : Nat)
      (o : Outcome (Except Fault Unit)) (listed uid : NodeUid) (kind : NodeEventKind),
      Listed K client s v listed → Runs (subscribeDriveEvents K fuel).run tr o →
      AccountAnswers K s v tr → ⟨.onEvent (.node uid kind), ()⟩ ∈ tr → uid.nodeId = listed.nodeId →
      SameNode uid listed := by
  intro h
  have hsame := h identityCrates smallClient "s" "v" smallFeed 2 .running _ _ .created smallListing
    smallFeed_runs smallFeed_answers smallFeed_event rfl
  exact absurd (congrArg NodeUid.volumeId hsame.same) (by decide)

end ProtonDrive
