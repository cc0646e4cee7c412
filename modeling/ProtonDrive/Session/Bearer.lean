import ProtonDrive.App.Http
import ProtonDrive.Session.Rotation

/-!
# Where the bearer token goes

* `KeepsBearer`          no request to a foreign host carries the auth headers of the session;
* `only_forceRefresh`, `only_attempts`
                         the requests that the clients make;
* `bearer_stays_home`    a blob request keeps the bearer token at home exactly if its path is no https URL
                         of a foreign host.
-/

set_option linter.unusedVariables false

namespace ProtonDrive
open Encoding Effects Api

/-! ## the calls of a session -/

section
variable {A : SessionCall → Prop} {α : Type}

theorem only_ask {c : SessionCall} (h : A c) : Only (S := sessionHost) A (ask c).run :=
  ⟨h, fun _ => trivial⟩

theorem only_orFail {ε : Type} (f : ε → SessionManagerError) (r : Except ε α) :
    Only (S := sessionHost) A (orFail f r).run := by
  cases r <;> trivial

theorem only_caught {p : Session α} (h : Only (S := sessionHost) A p.run) :
    Only (S := sessionHost) A (caught p).run :=
  Only.bind h fun _ => trivial

variable {K : Crates} {st : SessionState}

/-- the call is no blob request -/
def NoBlob (c : SessionCall) : Prop := ∀ req, c ≠ .requestBlob req

theorem only_deleteKeyring (uid : String) : Only (S := sessionHost) NoBlob (deleteKeyring uid).run :=
  Only.bindE (only_ask nofun) fun a =>
    match a with
    | .ok _ => trivial
    | .error .noEntry => trivial
    | .error (.other _) => trivial

theorem only_saveRotated (tok : Auth.RefreshResponse) :
    Only (S := sessionHost) NoBlob (saveRotated st tok).run := by
  refine Only.bindE (only_ask nofun) fun now => Only.bindE (only_caught ?_) fun _ => Only.bindE ?_ fun _ =>
    Only.bindE ?_ fun _ => trivial
  · exact Only.bindE (only_ask nofun) fun a => only_orFail _ a
  · exact Only.bindE (only_ask nofun) fun a => only_orFail _ a
  · exact Only.bindE (only_ask nofun) fun _ => Only.bindE (only_ask nofun) fun _ =>
      Only.bindE (only_ask nofun) fun a => only_orFail _ a

theorem only_doRefresh : Only (S := sessionHost) NoBlob (doRefresh K st).run := by
  refine Only.bindE (only_ask nofun) fun sent => Only.bindE (only_orFail _ sent) fun resp => ?_
  exact Only.ite (fun _ => Only.bindE (only_caught (only_deleteKeyring _)) fun _ => trivial)
    fun _ => Only.bindE (only_orFail _ _) fun tok => only_saveRotated tok

theorem only_settle (r : Except SessionManagerError SessionState) :
    Only (S := sessionHost) NoBlob (settle r).run := by
  cases r with
  | ok st => exact Only.bindE (only_ask nofun) fun _ => only_ask nofun
  | error e => exact only_ask nofun

theorem only_forceRefresh : Only (S := sessionHost) NoBlob (forceRefresh K).run :=
  Only.bindE (only_ask nofun) fun _ => Only.bindE (only_caught only_doRefresh) fun r =>
    Only.bindE (only_settle r) fun _ => only_orFail _ _

end

section
variable {A : SessionCall → Prop} {Req : Type} {inner : Req → SessionAware JsonResponse}
  {authed : List (String × String) → Req → Req} {req : Req}

/-- the calls of a request: those of the inner client, and those of a refresh -/
theorem only_send (K : Crates) (hA : ∀ c, NoBlob c → A c)
    (hinner : ∀ auth, Only (S := sessionHost) A (inner (authed auth req)).run) :
    Only (S := sessionHost) A (SessionAwareHttpClient.send K inner authed req).run := by
  have hauth : Only (S := sessionHost) A SessionAwareHttpClient.authHeaders.run :=
    ⟨hA _ nofun, fun _ => trivial⟩
  have hrefresh : Only (S := sessionHost) A (forceRefresh K).run := only_forceRefresh.mono hA
  refine Only.bindE hauth fun auth => Only.bindE (hinner auth) fun resp => ?_
  refine Only.ite (fun _ => trivial) fun _ =>
    Only.bindE (Only.bind hrefresh fun _ => trivial) fun refreshed => ?_
  match refreshed with
  | .ok _ => exact Only.bindE hauth fun auth => hinner auth
  | .error .sessionExpired => trivial
  | .error (.keyring _) => trivial
  | .error (.io _) => trivial
  | .error (.json _) => trivial
  | .error (.http _) => trivial
  | .error (.noKeyring _) => trivial

end

/-- a blob request goes to this path -/
def BlobsTo (path : String) (c : SessionCall) : Prop := ∀ req, c = .requestBlob req → req.path = path

theorem BlobsTo.of_noBlob {path : String} {c : SessionCall} (h : NoBlob c) : BlobsTo path c :=
  fun req hreq => absurd hreq (h req)

theorem only_requestBlob (K : Crates) (req : BlobRequest) :
    Only (S := sessionHost) (BlobsTo req.path) (SessionAwareHttpClient.requestBlob K req).run := by
  refine only_send K (fun _ => .of_noBlob) fun auth => ⟨?_, fun _ => trivial⟩
  intro req' hreq
  cases hreq
  rfl

theorem only_requestJson (K : Crates) (req : JsonRequest) (path : String) :
    Only (S := sessionHost) (BlobsTo path) (SessionAwareHttpClient.requestJson K req).run :=
  only_send K (fun _ => .of_noBlob) fun auth => ⟨nofun, fun _ => trivial⟩

/-! ## the calls of the transport -/

/-- a request goes to this URL -/
def SendsTo (url : String) (c : WireCall) : Prop := ∀ wire, c = .send wire → wire.url = url

theorem only_attempts (wire : WireRequest) (maxAttempts left attempt delayMs : Nat) :
    Only (S := wireHost) (SendsTo wire.url)
      (ReqwestHttpClient.attempts wire maxAttempts left attempt delayMs).run := by
  induction left generalizing attempt delayMs with
  | zero => trivial
  | succ left ih =>
    have hsleep : Only (S := wireHost) (SendsTo wire.url)
        (ReqwestHttpClient.sleepWithJitter delayMs).run :=
      ⟨nofun, fun _ => ⟨nofun, fun _ => trivial⟩⟩
    refine Only.bindE ⟨?_, fun _ => trivial⟩ fun sent => ?_
    · intro wire' hwire
      cases hwire
      rfl
    · match sent with
      | .ok resp =>
        refine Only.ite (fun _ => trivial) fun _ => ?_
        match resp.body with
        | .error e => trivial
        | .ok bytes => exact Only.ite (fun _ => Only.bindE hsleep fun _ => ih _ _) fun _ => trivial
      | .error (.transient e) =>
        exact Only.ite (fun _ => trivial) fun _ => Only.bindE hsleep fun _ => ih _ _
      | .error (.other e) => trivial

section
variable (client : ReqwestHttpClient)

theorem only_sendWithRetry {wire : WireRequest} {url : String} (hurl : wire.url = url) :
    Only (S := wireHost) (SendsTo url) (client.sendWithRetry wire).run := by
  subst hurl
  exact only_attempts { wire with headers := wire.headers ++
    [("x-pm-appversion", client.appVersion), ("accept", "application/json")] } _ _ _ _

theorem only_wireJson (req : JsonRequest) :
    Only (S := wireHost) (SendsTo (client.joined req.path)) (client.requestJson req).run := by
  unfold ReqwestHttpClient.requestJson
  cases req.body with
  | some doc => exact only_sendWithRetry client rfl
  | none => exact only_sendWithRetry client rfl

theorem only_wireBlob {req : BlobRequest} {url : String} (hurl : client.blobUrl req.path = .ok url) :
    Only (S := wireHost) (SendsTo url) (client.requestBlob req).run := by
  unfold ReqwestHttpClient.requestBlob
  rw [hurl]
  exact only_sendWithRetry client rfl

theorem only_refused {A : WireCall → Prop} {req : BlobRequest} {e : Error}
    (hurl : client.blobUrl req.path = .error e) :
    Only (S := wireHost) A (client.requestBlob req).run := by
  unfold ReqwestHttpClient.requestBlob
  rw [hurl]
  trivial

/-- a blob goes to the base URL, or its path is an https URL -/
theorem blobUrl_ok {path url : String} (h : client.blobUrl path = .ok url) :
    url = client.joined path ∨ (startsWith path "https://" = true ∧ url = path) := by
  unfold ReqwestHttpClient.blobUrl at h
  by_cases habsolute : startsWith path "https://" = true
  · rw [if_pos habsolute] at h
    exact .inr ⟨habsolute, (Except.ok.inj h).symm⟩
  · rw [if_neg habsolute] at h
    by_cases hplain : startsWith path "http://" = true
    · rw [if_pos hplain] at h
      cases h
    · rw [if_neg hplain] at h
      exact .inl (Except.ok.inj h).symm

end

/-! ## one client over the other -/

/-- a request goes to the path it is for: joined to the base URL, or the absolute `path` itself -/
def Addressed (client : ReqwestHttpClient) (path : String) (c : StackCall) : Prop :=
  ∀ wire, c = .wire (.send wire) →
    (∃ p, wire.url = client.joined p) ∨ (startsWith path "https://" = true ∧ wire.url = path)

theorem only_onWire {A : StackCall → Prop} {B : WireCall → Prop} {α : Type} {p : Wire α}
    (hp : Only (S := wireHost) B p.run) (hAB : ∀ c, B c → A (.wire c)) :
    Only (S := stackHost) A (onWire p) :=
  hp.handle fun c hc => ⟨hAB c hc, fun _ => trivial⟩

theorem only_session {client : ReqwestHttpClient} {path : String} (c : SessionCall) :
    Only (S := stackHost) (Addressed client path) (Prog.perform (S := stackHost) (.session c)) :=
  ⟨nofun, fun _ => trivial⟩

theorem only_overReqwest {client : ReqwestHttpClient} {path : String} (c : SessionCall)
    (hc : BlobsTo path c) : Only (S := stackHost) (Addressed client path) (overReqwest client c) := by
  cases c with
  | requestJson req =>
    refine only_onWire (only_wireJson client req) ?_
    intro c hsends wire hwire
    cases hwire
    exact .inl ⟨_, hsends wire rfl⟩
  | requestBlob req =>
    obtain rfl := hc req rfl
    cases hurl : client.blobUrl req.path with
    | error e => exact only_onWire (only_refused client hurl) fun _ h => h
    | ok url =>
      refine only_onWire (only_wireBlob client hurl) ?_
      intro c hsends wire hwire
      cases hwire
      rw [hsends wire rfl]
      exact (blobUrl_ok client hurl).imp (fun h => ⟨_, h⟩) id
  | _ => exact only_session _

/-- every request that a blob request gives rise to, the refresh and the retry included, is addressed so -/
theorem only_stackedBlob (K : Crates) (client : ReqwestHttpClient) (req : BlobRequest) :
    Only (S := stackHost) (Addressed client req.path) (stackedBlob K client req) :=
  (only_requestBlob K req).handle fun c hc => only_overReqwest c hc

theorem only_stackedJson (K : Crates) (client : ReqwestHttpClient) (req : JsonRequest) (path : String) :
    Only (S := stackHost) (Addressed client path) (stackedJson K client req) :=
  (only_requestJson K req path).handle fun c hc => only_overReqwest c hc

/-! ## hosts -/

section
variable (hostOf : String → Option String) (home : String)

/-- the URL has a host, and it is another -/
def Foreign (url : String) : Prop := ∃ h, hostOf url = some h ∧ h ≠ home

/-- a path that is joined to the base URL stays on the host `home` -/
def Pinned (client : ReqwestHttpClient) : Prop := ∀ path, hostOf (client.joined path) = some home

/-- no request to a foreign host carries an auth header of the session -/
def KeepsBearer (K : Crates) (client : ReqwestHttpClient) (req : BlobRequest) : Prop :=
  ∀ tr o, Runs (stackedBlob K client req) tr o → ∀ wire a, ⟨.wire (.send wire), a⟩ ∈ tr →
    Foreign hostOf home wire.url → ∀ st, ⟨.session .readState, st⟩ ∈ tr →
      ∀ header ∈ SessionState.authHeaders st, header ∉ wire.headers

end

section
variable {hostOf : String → Option String} {home : String} {K : Crates} {client : ReqwestHttpClient}
  {req : BlobRequest}

/-- a JSON request reaches no foreign host -/
theorem json_stays_home (hpinned : Pinned hostOf home client) {req : JsonRequest} {tr : Trace stackHost}
    {o : Outcome (Except Error JsonResponse)} (hrun : Runs (stackedJson K client req) tr o)
    {wire : WireRequest} {a : (WireCall.send wire).Ans} (hmem : ⟨.wire (.send wire), a⟩ ∈ tr) :
    ¬ Foreign hostOf home wire.url := by
  intro ⟨h, hhost, hne⟩
  rcases hrun.only (only_stackedJson K client req "") _ hmem wire rfl with ⟨p, hurl⟩ | ⟨hbare, _⟩
  · rw [hurl, hpinned p] at hhost
    exact hne (Option.some.inj hhost).symm
  · cases hbare

/-- the first request of a blob request for a `BareURL` -/
def bareWire (client : ReqwestHttpClient) (st : SessionState) (req : BlobRequest) : WireRequest where
  method := req.method
  url := req.path
  query := req.query
  headers := st.authHeaders ++ req.headers ++
    [("x-pm-appversion", client.appVersion), ("accept", "application/json")]
  body := .bytes req.body

/-- it carries the auth headers -/
theorem bareWire_runs (K : Crates) (client : ReqwestHttpClient) (req : BlobRequest) (st : SessionState)
    (hbare : startsWith req.path "https://" = true)
    (hattempts : client.maxAttempts ≠ 0) :
    Runs (stackedBlob K client req)
      [⟨.session .readState, st⟩, ⟨.wire (.send (bareWire client st req)), .error (.other "refused")⟩]
      .running := by
  obtain ⟨left, hleft⟩ := Nat.exists_eq_succ_of_ne_zero hattempts
  have hurl : client.blobUrl req.path = .ok req.path := if_pos hbare
  have hsend : Runs (onWire (client.requestBlob { req with headers := st.authHeaders ++ req.headers }))
      [⟨.wire (.send (bareWire client st req)), .error (.other "refused")⟩] .running := by
    unfold ReqwestHttpClient.requestBlob ReqwestHttpClient.sendWithRetry
    rw [hurl, hleft]
    exact .call (.stop _)
  exact .call (Runs.bind_running (p := onWire (client.requestBlob
    { req with headers := st.authHeaders ++ req.headers })) hsend)

/-- the transport keeps the bearer token of the session at home exactly for the requests whose path is no
https URL of a foreign host -/
theorem bearer_stays_home (hpinned : Pinned hostOf home client) (hattempts : client.maxAttempts ≠ 0) :
    KeepsBearer hostOf home K client req ↔
      ¬ (startsWith req.path "https://" = true ∧ Foreign hostOf home req.path) := by
  constructor
  · intro hkeeps ⟨hbare, hforeign⟩
    have hrun := bareWire_runs K client req smallState hbare hattempts
    refine hkeeps _ _ hrun (bareWire client smallState req) _ (List.mem_cons_of_mem _ List.mem_cons_self)
      hforeign smallState List.mem_cons_self ("Authorization", "Bearer a0") List.mem_cons_self ?_
    exact List.mem_append_left _ (List.mem_append_left _ List.mem_cons_self)
  · intro hhome tr o hrun wire a hmem hforeign
    rcases hrun.only (only_stackedBlob K client req) _ hmem wire rfl with ⟨p, hurl⟩ | ⟨hbare, hurl⟩
    · obtain ⟨h, hhost, hne⟩ := hforeign
      rw [hurl, hpinned p] at hhost
      exact absurd (Option.some.inj hhost).symm hne
    · rw [hurl] at hforeign
      exact absurd ⟨hbare, hforeign⟩ hhome

end

/-! ## the hosts of https URLs -/

/-- the host of an https URL that has no user, no password and no port -/
def httpsHost (url : String) : Option String :=
  if startsWith url "https://" then
    some (String.ofList ((url.toList.drop 8).takeWhile fun c => c ≠ '/' && c ≠ '?' && c ≠ '#'))
  else none

def defaultClient : ReqwestHttpClient := .new defaultBaseUrl defaultAppVersion

theorem defaultClient_pinned : Pinned httpsHost "drive.proton.me" defaultClient := by
  intro path
  have hbase : trimEndSlashes defaultClient.baseUrl = "https://drive.proton.me/api" := by decide
  unfold ReqwestHttpClient.joined httpsHost startsWith
  rw [hbase, String.toList_append, String.toList_append]
  rfl

/-- the get of a block, as a revision could name it -/
def foreignBlob : BlobRequest where
  method := .get
  path := "https://storage.example/block/1"
  query := []
  headers := [("pm-storage-token", "t")]
  body := []

/-- the bearer token is sent to the storage host -/
theorem foreignBlob_leaks :
    ¬ KeepsBearer httpsHost "drive.proton.me" (smallCrates []) defaultClient foreignBlob := by
  intro hkeeps
  have hrun := bareWire_runs (smallCrates []) defaultClient foreignBlob smallState (by decide) (by decide)
  exact hkeeps _ _ hrun (bareWire defaultClient smallState foreignBlob) _
    (List.mem_cons_of_mem _ List.mem_cons_self) ⟨"storage.example", by decide, by decide⟩ smallState
    List.mem_cons_self ("Authorization", "Bearer a0") List.mem_cons_self (by decide)

/-- a path of the API -/
theorem apiBlob_keeps :
    KeepsBearer httpsHost "drive.proton.me" (smallCrates []) defaultClient
      { foreignBlob with path := "/drive/blocks/1" } :=
  (bearer_stays_home defaultClient_pinned (by decide)).mpr fun h => absurd h.1 (by decide)

end ProtonDrive
