import ProtonDrive.Core.Listing
import ProtonDrive.Core.Scripted

/-!
# The errors of the endpoints

An answer of the server that reports a failure is an envelope without a payload (`ErrorAnswer`).
The functions of the core that make a request look at it in one of three ways:

* `getTyped`             the envelope is read with its payload, and then its code is looked at;
* `postProbed`, `putCommitRevision`
                         the code is looked at first, with `map_api_error`;
* `getChecked`           the code is looked at first, with `check_code`.

`Surfaces` says that a request ends in the error that belongs to the code, and `surfaces_iff` for
which requests and codes this is so.
-/

set_option linter.unusedVariables false

namespace ProtonDrive
open Encoding Effects Api

/-! ## requests that read the payload first -/

/-- the body of `api_get`, `api_get_with_query`, `fetch_revision` and the others of their kind -/
def getTyped (codeError : Nat → Option String → Error) (K : Crates) {α : Type}
    (what type : String) (dec : Json → Option α) (req : JsonRequest) : Sdk α := do
  let resp ← requestJson req
  let env ← ofExcept (fun e => .internal (what ++ ": " ++ e))
    (K.fromSlice ("ResponseEnvelope<" ++ type ++ ">") (ResponseEnvelope.ofJson dec) resp.body)
  require (env.code = CODE_OK) (codeError env.code env.error)
  return env.inner

theorem getJsonOr_eq (codeError : Nat → Option String → Error) (K : Crates) {α : Type}
    (what type : String) (dec : Json → Option α) (path : String) :
    getJsonOr codeError K what type dec path =
      getTyped codeError K what type dec (.bare .get path none) := rfl

theorem apiGetWithQuery_eq (K : Crates) {α : Type} (type : String) (dec : Json → Option α)
    (path : String) (query : List (String × String)) :
    apiGetWithQuery K type dec path query = getTyped mapApiError K "JSON parse" type dec
      { method := .get, path, query, headers := [], body := none } := rfl

/-- the error of `resolve_share_volume` and `resolve_active_revision`, whatever the code -/
def notFoundError (code : Nat) (error : Option String) : Error :=
  .notFound (error.getD ("API error " ++ toString code))

/-! ## the endpoints -/

/-- the functions of the core that read an answer of the server -/
inductive Endpoint where
  | apiGet {α : Type} (type : String) (dec : Json → Option α) (path : String)
  | apiGetWithQuery {α : Type} (type : String) (dec : Json → Option α) (path : String)
      (query : List (String × String))
  | fetchRevision (dl : FileDownloader)
  | resolveShareVolume (shareId : String)
  | resolveActiveRevision (shareId linkId : String)
  | resolveVolumeId (shareId : String)
  | parentShare (shareId : String)
  | parentLink (shareId linkId : String)
  | getVerificationCode (volumeId linkId revisionId : String)
  | postCreateFile (volumeId : String) (req : Upload.CreateFileRequest)
  | postRequestBlocks (req : Upload.RequestBlockUploadRequest)
  | putCommitRevision (volumeId linkId revisionId : String) (req : Upload.CommitRevisionRequest)
  | fetchLatestEventId (volumeId : String)
  | fetchVolumeEvents (volumeId eventId : String)

def Endpoint.call (K : Crates) : Endpoint → Sdk Unit
  | .apiGet type dec path => do let _ ← ProtonDrive.apiGet K type dec path
  | .apiGetWithQuery type dec path query => do
    let _ ← ProtonDrive.apiGetWithQuery K type dec path query
  | .fetchRevision dl => do let _ ← ProtonDrive.fetchRevision K dl
  | .resolveShareVolume shareId => do let _ ← ProtonDrive.resolveShareVolume K shareId
  | .resolveActiveRevision shareId linkId => do
    let _ ← ProtonDrive.resolveActiveRevision K shareId linkId
  | .resolveVolumeId shareId => do let _ ← ProtonDrive.resolveVolumeId K shareId
  -- the two requests of `resolve_parent_context`
  | .parentShare shareId => do
    let _ ← getJson K "share JSON parse" "GetShareResponse" Shares.GetShareResponse.ofJson
      ("/drive/shares/" ++ shareId)
  | .parentLink shareId linkId => do
    let _ ← getJson K "parent link JSON parse" "GetLinkResponse" Nodes.GetLinkResponse.ofJson
      ("/drive/shares/" ++ shareId ++ "/links/" ++ linkId)
  | .getVerificationCode volumeId linkId revisionId => do
    let _ ← ProtonDrive.getVerificationCode K volumeId linkId revisionId
  | .postCreateFile volumeId req => do let _ ← ProtonDrive.postCreateFile K volumeId req
  | .postRequestBlocks req => do let _ ← ProtonDrive.postRequestBlocks K req
  | .putCommitRevision volumeId linkId revisionId req =>
    ProtonDrive.putCommitRevision K volumeId linkId revisionId req
  | .fetchLatestEventId volumeId => do let _ ← ProtonDrive.fetchLatestEventId K volumeId
  | .fetchVolumeEvents volumeId eventId => do
    let _ ← ProtonDrive.fetchVolumeEvents K volumeId eventId

def Endpoint.request : Endpoint → JsonRequest
  | .apiGet _ _ path => .bare .get path none
  | .apiGetWithQuery _ _ path query => { method := .get, path, query, headers := [], body := none }
  | .fetchRevision dl => .bare .get dl.revisionPath none
  | .resolveShareVolume shareId => .bare .get ("/drive/shares/" ++ shareId) none
  | .resolveActiveRevision shareId linkId =>
    .bare .get ("/drive/shares/" ++ shareId ++ "/links/" ++ linkId) none
  | .resolveVolumeId shareId => .bare .get ("/drive/shares/" ++ shareId) none
  | .parentShare shareId => .bare .get ("/drive/shares/" ++ shareId) none
  | .parentLink shareId linkId =>
    .bare .get ("/drive/shares/" ++ shareId ++ "/links/" ++ linkId) none
  | .getVerificationCode volumeId linkId revisionId =>
    .bare .get ("/drive/v2/volumes/" ++ volumeId ++ "/links/" ++ linkId ++ "/revisions/" ++
      revisionId ++ "/verification") none
  | .postCreateFile volumeId req => .bare .post (filesPath volumeId) (some req.toJson)
  | .postRequestBlocks req => .bare .post blocksPath (some req.toJson)
  | .putCommitRevision volumeId linkId revisionId req =>
    .bare .put (commitPath volumeId linkId revisionId) (some req.toJson)
  | .fetchLatestEventId volumeId => latestGet volumeId
  | .fetchVolumeEvents volumeId eventId => eventsGet volumeId eventId

/-- the document has the payload that the endpoint asks for; a commit asks for none -/
def Endpoint.hasPayload : Endpoint → Json → Bool
  | .apiGet _ dec _, j => (dec j).isSome
  | .apiGetWithQuery _ dec _ _, j => (dec j).isSome
  | .fetchRevision _, j => (Download.GetRevisionResponse.ofJson j).isSome
  | .resolveShareVolume _, j => (Shares.GetShareResponse.ofJson j).isSome
  | .resolveActiveRevision _ _, j => (Nodes.GetLinkResponse.ofJson j).isSome
  | .resolveVolumeId _, j => (Shares.GetShareResponse.ofJson j).isSome
  | .parentShare _, j => (Shares.GetShareResponse.ofJson j).isSome
  | .parentLink _ _, j => (Nodes.GetLinkResponse.ofJson j).isSome
  | .getVerificationCode _ _ _, j => (VerificationDataResponse.ofJson j).isSome
  | .postCreateFile _ _, j => (Upload.CreateFileResponse.ofJson j).isSome
  | .postRequestBlocks _, j => (Upload.RequestBlockUploadResponse.ofJson j).isSome
  | .putCommitRevision _ _ _ _, _ => false
  | .fetchLatestEventId _, j => (Events.GetLatestEventIdResponse.ofJson j).isSome
  | .fetchVolumeEvents _ _, j => (Events.GetVolumeEventsResponse.ofJson j).isSome

/-- a valid envelope with the code `c`, which is none of the codes of success, with the text `m` if
any, and without the payload -/
def ErrorAnswer (K : Crates) (ep : Endpoint) (body : Bytes) (c : Nat) (m : Option String) : Prop :=
  ∃ j, K.jsonParse body = some j ∧ EnvelopeProbe.ofMembers j = some ⟨c, m⟩ ∧
    (c < 1000 ∨ 1002 < c) ∧ ep.hasPayload j = false

/-- the text of the error contains `text` -/
def Mentions (e : Error) (text : String) : Prop := text.toList <:+: e.display.toList

/-- the error that belongs to the code of an answer -/
def RightError (c : Nat) (m : Option String) (e : Error) : Prop :=
  if c = 2501 then ∃ msg, e = .notFound msg
  else if c = 2500 then ∃ name, e = .nodeWithSameNameExists name
  else (∀ text, m = some text → Mentions e text) ∧ (∀ msg, e ≠ .notFound msg) ∧
    ∀ name, e ≠ .nodeWithSameNameExists name

/-- the endpoint ends in the error that belongs to the code, whatever `serde` says of a body it
cannot read: no part of the error is the text of a failed parse -/
def Surfaces (K : Crates) (ep : Endpoint) (resp : JsonResponse) (c : Nat) (m : Option String) :
    Prop :=
  ∃ e, RightError c m e ∧ ∀ said, Runs (ep.call { K with jsonError := said }).run
    [⟨.requestJson ep.request, .ok resp⟩] (.done (.error (.error e)))

/-- where this is so -/
def Endpoint.surfaces : Endpoint → Nat → Bool
  | .postCreateFile _ _, c => c ≠ 2500 ∧ c ≠ 2011
  | .postRequestBlocks _, c => c ≠ 2500 ∧ c ≠ 2011
  | .putCommitRevision _ _ _ _, c => c ≠ 2500 ∧ c ≠ 2011
  | .fetchLatestEventId _, c => c ≠ 2500
  | .fetchVolumeEvents _ _, c => c ≠ 2500
  | _, _ => false

/-! ## which error belongs to which code -/

section
variable {c : Nat} {m : Option String}

/-- an internal error with the text of the answer carries it -/
theorem mentions_internal {text : String} (h : m = some text) (other : String) :
    Mentions (.internal (m.getD other)) text := by
  subst h
  have hdisplay : (Error.internal text).display.toList = "internal: ".toList ++ text.toList :=
    String.toList_append
  unfold Mentions
  show text.toList <:+: (Error.internal text).display.toList
  rw [hdisplay]
  exact (List.suffix_append _ _).isInfix

theorem rightError_internal (hc : c ≠ 2501) (hc' : c ≠ 2500) (other : String) :
    RightError c m (.internal (m.getD other)) := by
  unfold RightError
  rw [if_neg hc, if_neg hc']
  exact ⟨fun text h => mentions_internal h other, nofun, nofun⟩

theorem mapApiError_right_iff : RightError c m (mapApiError c m) ↔ c ≠ 2500 ∧ c ≠ 2011 := by
  by_cases hmissing : c = 2501
  · subst hmissing
    exact ⟨fun _ => by decide, fun _ => ⟨_, rfl⟩⟩
  · by_cases hdenied : c = 2011
    · subst hdenied
      refine ⟨fun h => ?_, fun h => absurd rfl h.2⟩
      exact absurd rfl (h.2.2 _)
    · have herror : mapApiError c m = .internal (m.getD ("API error " ++ toString c)) := by
        unfold mapApiError
        rw [if_neg hmissing, if_neg hdenied]
      rw [herror]
      constructor
      · intro h
        refine ⟨fun hexists => ?_, hdenied⟩
        subst hexists
        obtain ⟨name, hname⟩ := h
        cases hname
      · intro h
        exact rightError_internal hmissing h.1 _

theorem revisionError_right_iff : RightError c m (revisionError c m) ↔ c ≠ 2500 := by
  by_cases hmissing : c = 2501
  · subst hmissing
    exact ⟨fun _ => by decide, fun _ => ⟨_, rfl⟩⟩
  · have herror : revisionError c m = .internal (m.getD ("API error " ++ toString c)) := by
      unfold revisionError
      rw [if_neg hmissing]
    rw [herror]
    constructor
    · rintro h rfl
      obtain ⟨name, hname⟩ := h
      cases hname
    · intro hexists
      exact rightError_internal hmissing hexists _

end

/-! ## how each kind of request ends -/

section
variable {K : Crates} {ep : Endpoint} {resp : JsonResponse} {c : Nat} {m : Option String}
  {α : Type} {dec : Json → Option α} {j : Json}

/-- one error, whatever `serde` says -/
theorem surfaces_of_error {e : Error} (h : ∀ said, Runs (ep.call { K with jsonError := said }).run
    [⟨.requestJson ep.request, .ok resp⟩] (.done (.error (.error e)))) :
    Surfaces K ep resp c m ↔ RightError c m e := by
  constructor
  · intro ⟨e', hright, hruns⟩
    cases (hruns K.jsonError).done_unique (h K.jsonError)
    exact hright
  · intro hright
    exact ⟨e, hright, h⟩

/-- an error that is what `serde` says -/
theorem not_surfaces_of_parse {what type : String}
    (h : ∀ said, Runs (ep.call { K with jsonError := said }).run
      [⟨.requestJson ep.request, .ok resp⟩]
      (.done (.error (.error (.internal (what ++ ": " ++ said type resp.body)))))) :
    ¬ Surfaces K ep resp c m := by
  intro ⟨e, _, hruns⟩
  have hone := (hruns fun _ _ => "").done_unique (h fun _ _ => "")
  have htwo := (hruns fun _ _ => "x").done_unique (h fun _ _ => "x")
  have heq : what ++ ": " ++ "" = what ++ ": " ++ "x" := by
    have herror := hone.symm.trans htwo
    injection herror with herror
    injection herror with herror
    injection herror
  have hlength := congrArg String.length heq
  simp only [String.length_append] at hlength
  have hempty : "".length = 0 := by decide
  have hletter : "x".length = 1 := by decide
  omega

theorem getTyped_parseError (codeError : Nat → Option String → Error) (what type : String)
    (req : JsonRequest) (hj : K.jsonParse resp.body = some j) (hbare : (dec j).isSome = false) :
    Runs (getTyped codeError K what type dec req).run [⟨.requestJson req, .ok resp⟩]
      (.done (.error (.error (.internal
        (what ++ ": " ++ K.jsonError ("ResponseEnvelope<" ++ type ++ ">") resp.body))))) := by
  have hnone : (K.jsonParse resp.body).bind (ResponseEnvelope.ofJson dec) = none := by
    have hdec : dec j = none := Option.isSome_eq_false_iff.mp hbare |> Option.isNone_iff_eq_none.mp
    rw [hj, Option.bind_some]
    unfold ResponseEnvelope.ofJson
    rw [hdec]
    cases j.required Json.asU32 "Code" <;> rfl
  have hread : Runs (ofExcept (fun e => Error.internal (what ++ ": " ++ e))
      (K.fromSlice ("ResponseEnvelope<" ++ type ++ ">") (ResponseEnvelope.ofJson dec)
        resp.body)).run [] (.done (.error (.error (.internal
        (what ++ ": " ++ K.jsonError ("ResponseEnvelope<" ++ type ++ ">") resp.body))))) := by
    unfold Crates.fromSlice
    rw [hnone]
    exact .ret _
  exact Runs.bindE_one (.call (.ret _)) (Runs.bindE_fails hread)

theorem postProbed_apiError {probeWhat what sep type path : String} {body : Json}
    (hj : K.jsonParse resp.body = some j) (hprobe : EnvelopeProbe.ofMembers j = some ⟨c, m⟩)
    (hc : c ≠ CODE_OK) :
    Runs (postProbed K probeWhat what sep type dec path body).run
      [⟨.requestJson (.bare .post path (some body)), .ok resp⟩]
      (.done (.error (.error (mapApiError c m)))) := by
  have hread : (K.jsonParse resp.body).bind EnvelopeProbe.ofJson = some ⟨c, m⟩ := by
    rw [hj, Option.bind_some, EnvelopeProbe.ofJson_of_members hprobe]
  refine Runs.bindE_one (.call (.ret _)) ?_
  rw [parseOrSnip_eq hread, pure_bind]
  have hfail : Runs (require (decide (c = CODE_OK)) (mapApiError c m)).run []
      (.done (.error (.error (mapApiError c m)))) := by
    rw [decide_eq_false hc]
    exact .ret _
  exact Runs.bindE_fails hfail

theorem getChecked_apiError {what type : String} {req : JsonRequest}
    (hj : K.jsonParse resp.body = some j) (hprobe : EnvelopeProbe.ofMembers j = some ⟨c, m⟩)
    (hc : c ≠ CODE_OK) :
    Runs (getChecked K what type dec req).run [⟨.requestJson req, .ok resp⟩]
      (.done (.error (.error (revisionError c m)))) := by
  have hhead : (K.jsonParse resp.body).bind CodeOnly.ofJson = some ⟨c, m⟩ := by
    rw [hj, Option.bind_some]
    exact CodeOnly.ofJson_of_probe hprobe
  have hcheck : Runs (checkCode K resp.body).run []
      (.done (.error (.error (revisionError c m)))) := by
    unfold checkCode
    rw [fromSlice_of_some hhead]
    show Runs (require (decide (c = CODE_OK)) _).run [] _
    rw [decide_eq_false hc]
    exact .ret _
  exact Runs.bindE_one (.call (.ret _)) (Runs.bindE_fails hcheck)

/-- an endpoint that begins by reading the payload ends in a failed parse -/
theorem typed_not_surfaces (codeError : Nat → Option String → Error) (what type : String)
    (dec : Json → Option α) (hfails : ∀ K' tr e,
      Runs (getTyped codeError K' what type dec ep.request).run tr (.done (.error e)) →
        Runs (ep.call K').run tr (.done (.error e)))
    (hj : K.jsonParse resp.body = some j) (hbare : (dec j).isSome = false) :
    ¬ Surfaces K ep resp c m := by
  have hends : ∀ said, Runs (ep.call { K with jsonError := said }).run
      [⟨.requestJson ep.request, .ok resp⟩] (.done (.error (.error (.internal
        (what ++ ": " ++ said ("ResponseEnvelope<" ++ type ++ ">") resp.body))))) := by
    intro said
    apply hfails
    exact getTyped_parseError (K := { K with jsonError := said }) codeError what type ep.request hj
      hbare
  exact not_surfaces_of_parse hends

/-- an endpoint that begins by looking at the code has `map_api_error` -/
theorem probed_surfaces_iff (probeWhat what sep type path : String) (dec : Json → Option α)
    (body : Json) (hreq : ep.request = .bare .post path (some body)) (hfails : ∀ K' tr e,
      Runs (postProbed K' probeWhat what sep type dec path body).run tr (.done (.error e)) →
        Runs (ep.call K').run tr (.done (.error e)))
    (hj : K.jsonParse resp.body = some j) (hprobe : EnvelopeProbe.ofMembers j = some ⟨c, m⟩)
    (hc : c ≠ CODE_OK) : Surfaces K ep resp c m ↔ c ≠ 2500 ∧ c ≠ 2011 := by
  rw [← mapApiError_right_iff (m := m)]
  apply surfaces_of_error
  intro said
  rw [hreq]
  apply hfails
  exact postProbed_apiError (K := { K with jsonError := said }) hj hprobe hc

/-- an endpoint that begins with `check_code` has the errors of `check_code` -/
theorem checked_surfaces_iff (what type : String) (dec : Json → Option α) (hfails : ∀ K' tr e,
      Runs (getChecked K' what type dec ep.request).run tr (.done (.error e)) →
        Runs (ep.call K').run tr (.done (.error e)))
    (hj : K.jsonParse resp.body = some j) (hprobe : EnvelopeProbe.ofMembers j = some ⟨c, m⟩)
    (hc : c ≠ CODE_OK) : Surfaces K ep resp c m ↔ c ≠ 2500 := by
  rw [← revisionError_right_iff (m := m)]
  apply surfaces_of_error
  intro said
  apply hfails
  exact getChecked_apiError (K := { K with jsonError := said }) hj hprobe hc

/-- a commit reads an envelope around anything, and so finds the code -/
theorem commit_apiError {volumeId linkId revisionId : String} {req : Upload.CommitRevisionRequest}
    (hj : K.jsonParse resp.body = some j) (hprobe : EnvelopeProbe.ofMembers j = some ⟨c, m⟩)
    (hc : c ≠ CODE_OK) :
    Runs (putCommitRevision K volumeId linkId revisionId req).run
      [⟨.requestJson (.bare .put (commitPath volumeId linkId revisionId) (some req.toJson)),
        .ok resp⟩]
      (.done (.error (.error (mapApiError c m)))) := by
  have henv : (K.jsonParse resp.body).bind (ResponseEnvelope.ofJson some) =
      some { code := c, inner := j, error := m } := by
    rw [hj, Option.bind_some]
    simp only [EnvelopeProbe.ofMembers, Option.bind_eq_bind, Option.bind_eq_some_iff, Option.pure_def,
      Option.some.injEq, EnvelopeProbe.mk.injEq] at hprobe
    obtain ⟨c', hcode, m', herror, rfl, rfl⟩ := hprobe
    simp [ResponseEnvelope.ofJson, hcode, herror]
  have hread : Runs (ofExcept (fun e => Error.internal ("CommitRevisionResponse parse: " ++ e))
      (K.fromSlice "ResponseEnvelope<Value>" (ResponseEnvelope.ofJson some) resp.body)).run []
      (.done (.ok { code := c, inner := j, error := m })) := by
    rw [fromSlice_of_some henv]
    exact .ret _
  have hfail : Runs (require (decide (c = CODE_OK)) (mapApiError c m)).run []
      (.done (.error (.error (mapApiError c m)))) := by
    rw [decide_eq_false hc]
    exact .ret _
  exact Runs.bindE_one (.call (.ret _)) (Runs.bindE_none hread hfail)

/-- an answer that reports a failure becomes the error that belongs to its code where the code is
looked at before the payload, except that no endpoint knows the code of a name that is taken, and
that `map_api_error` takes a missing permission for one -/
theorem surfaces_iff (K : Crates) (ep : Endpoint) (resp : JsonResponse) (c : Nat)
    (m : Option String) (h : ErrorAnswer K ep resp.body c m) :
    Surfaces K ep resp c m ↔ ep.surfaces c = true := by
  obtain ⟨j, hj, hprobe, houtside, hbare⟩ := h
  have hc : c ≠ CODE_OK := by
    show c ≠ 1000
    omega
  cases ep with
  | apiGet type dec path =>
    exact iff_of_false (typed_not_surfaces mapApiError "JSON parse" type dec
      (fun _ _ _ h => Runs.bindE_fails h) hj hbare) nofun
  | apiGetWithQuery type dec path query =>
    exact iff_of_false (typed_not_surfaces mapApiError "JSON parse" type dec
      (fun _ _ _ h => Runs.bindE_fails h) hj hbare) nofun
  | fetchRevision dl =>
    exact iff_of_false (typed_not_surfaces revisionError "revision JSON" "GetRevisionResponse"
      Download.GetRevisionResponse.ofJson
      (fun _ _ _ h => Runs.bindE_fails (Runs.bindE_fails h)) hj hbare) nofun
  | resolveShareVolume shareId =>
    exact iff_of_false (typed_not_surfaces notFoundError "share JSON" "GetShareResponse"
      Shares.GetShareResponse.ofJson
      (fun _ _ _ h => Runs.bindE_fails (Runs.bindE_fails h)) hj hbare) nofun
  | resolveActiveRevision shareId linkId =>
    exact iff_of_false (typed_not_surfaces notFoundError "link JSON" "GetLinkResponse"
      Nodes.GetLinkResponse.ofJson
      (fun _ _ _ h => Runs.bindE_fails (Runs.bindE_fails h)) hj hbare) nofun
  | resolveVolumeId shareId =>
    exact iff_of_false (typed_not_surfaces mapApiError "shares JSON parse" "GetShareResponse"
      Shares.GetShareResponse.ofJson
      (fun _ _ _ h => Runs.bindE_fails (Runs.bindE_fails h)) hj hbare) nofun
  | parentShare shareId =>
    exact iff_of_false (typed_not_surfaces mapApiError "share JSON parse" "GetShareResponse"
      Shares.GetShareResponse.ofJson (fun _ _ _ h => Runs.bindE_fails h) hj hbare) nofun
  | parentLink shareId linkId =>
    exact iff_of_false (typed_not_surfaces mapApiError "parent link JSON parse" "GetLinkResponse"
      Nodes.GetLinkResponse.ofJson (fun _ _ _ h => Runs.bindE_fails h) hj hbare) nofun
  | getVerificationCode volumeId linkId revisionId =>
    exact iff_of_false (typed_not_surfaces mapApiError "verification JSON parse"
      "VerificationDataResponse" VerificationDataResponse.ofJson
      (fun _ _ _ h => Runs.bindE_fails (Runs.bindE_fails h)) hj hbare) nofun
  | postCreateFile volumeId req =>
    rw [probed_surfaces_iff "CreateFile envelope parse" "CreateFileResponse parse" "="
      "CreateFileResponse" (filesPath volumeId) Upload.CreateFileResponse.ofJson req.toJson rfl
      (fun _ _ _ h => Runs.bindE_fails (Runs.bindE_fails h)) hj hprobe hc]
    simp [Endpoint.surfaces]
  | postRequestBlocks req =>
    rw [probed_surfaces_iff "RequestBlockUpload envelope parse" "RequestBlockUploadResponse parse"
      ": " "RequestBlockUploadResponse" blocksPath Upload.RequestBlockUploadResponse.ofJson
      req.toJson rfl (fun _ _ _ h => Runs.bindE_fails (Runs.bindE_fails h)) hj hprobe hc]
    simp [Endpoint.surfaces]
  | putCommitRevision volumeId linkId revisionId req =>
    have hends : Surfaces K (.putCommitRevision volumeId linkId revisionId req) resp c m ↔
        RightError c m (mapApiError c m) := by
      apply surfaces_of_error
      intro said
      exact commit_apiError (K := { K with jsonError := said }) hj hprobe hc
    rw [hends, mapApiError_right_iff]
    simp [Endpoint.surfaces]
  | fetchLatestEventId volumeId =>
    rw [checked_surfaces_iff "latest-event JSON" "GetLatestEventIdResponse"
      Events.GetLatestEventIdResponse.ofJson
      (fun _ _ _ h => Runs.bindE_fails (Runs.bindE_fails h)) hj hprobe hc]
    simp [Endpoint.surfaces]
  | fetchVolumeEvents volumeId eventId =>
    rw [checked_surfaces_iff "events JSON" "GetVolumeEventsResponse"
      Events.GetVolumeEventsResponse.ofJson (fun _ _ _ h => Runs.bindE_fails h) hj hprobe hc]
    simp [Endpoint.surfaces]

end

/-! ## a node that is gone, and a folder that may not be written to -/

def goneNode : Json := .obj [("Code", .num 2501), ("Error", .str "This node is gone")]

def deniedWrite : Json := .obj [("Code", .num 2011), ("Error", .str "This folder is read-only")]

def rejection (doc : Json) : JsonResponse := { status := 422, headers := [], body := textOf doc }

/-- a document that is alone is read as itself -/
theorem alone_parses (doc : Json) : (smallCrates [doc]).jsonParse (textOf doc) = some doc := by
  have hone : ([doc].map textOf).Nodup := List.nodup_singleton (textOf doc)
  exact readTable_textOf hone (List.mem_singleton.mpr rfl)

/-- the link of a node that is gone: the answer is taken for one that cannot be read -/
theorem goneNode_error : ErrorAnswer (smallCrates [goneNode])
      (.apiGet "GetLinkResponse" Nodes.GetLinkResponse.ofJson "/drive/shares/s/links/l")
      (textOf goneNode) 2501 (some "This node is gone") :=
  ⟨goneNode, alone_parses goneNode, rfl, .inr (by omega), rfl⟩

theorem deniedWrite_error (req : Upload.CreateFileRequest) :
    ErrorAnswer (smallCrates [deniedWrite]) (.postCreateFile "v" req) (textOf deniedWrite) 2011
      (some "This folder is read-only") :=
  ⟨deniedWrite, alone_parses deniedWrite, rfl, .inr (by omega), rfl⟩

/-- a folder that may not be written to is taken for one that has a file of that name -/
theorem deniedWrite_clashes (req : Upload.CreateFileRequest) :
    Runs (Endpoint.call (smallCrates [deniedWrite]) (.postCreateFile "v" req)).run
      [⟨.requestJson (.bare .post (filesPath "v") (some req.toJson)),
        .ok (rejection deniedWrite)⟩]
      (.done (.error (.error (.nodeWithSameNameExists "This folder is read-only")))) := by
  have hprobe : EnvelopeProbe.ofMembers deniedWrite =
      some ⟨2011, some "This folder is read-only"⟩ := rfl
  have hcode : 2011 ≠ CODE_OK := by decide
  apply Runs.bindE_fails
  apply Runs.bindE_fails
  exact postProbed_apiError (alone_parses deniedWrite) hprobe hcode

/-- not every request reports a missing node as missing, and a missing permission is reported as a
clash of names -/
theorem goneNode_masked : (¬ ∀ (K : Crates) (ep : Endpoint) (resp : JsonResponse) (c : Nat)
    (m : Option String), ErrorAnswer K ep resp.body c m → Surfaces K ep resp c m) ∧
    ∀ req, ErrorAnswer (smallCrates [deniedWrite]) (.postCreateFile "v" req) (textOf deniedWrite)
        2011 (some "This folder is read-only") ∧
      Runs (Endpoint.call (smallCrates [deniedWrite]) (.postCreateFile "v" req)).run
        [⟨.requestJson (.bare .post (filesPath "v") (some req.toJson)),
          .ok (rejection deniedWrite)⟩]
        (.done (.error (.error (.nodeWithSameNameExists "This folder is read-only")))) := by
  refine ⟨?_, fun req => ⟨deniedWrite_error req, deniedWrite_clashes req⟩⟩
  intro h
  have hsurfaces := h _ _ (rejection goneNode) _ _ goneNode_error
  have hmasked : ¬ Surfaces (smallCrates [goneNode])
      (.apiGet "GetLinkResponse" Nodes.GetLinkResponse.ofJson "/drive/shares/s/links/l")
      (rejection goneNode) 2501 (some "This node is gone") :=
    typed_not_surfaces mapApiError "JSON parse" "GetLinkResponse" Nodes.GetLinkResponse.ofJson
      (fun _ _ _ h => Runs.bindE_fails h) (alone_parses goneNode) rfl
  exact hmasked hsurfaces

/-- no link of a node that is gone is found to be missing -/
theorem goneNode_unread : ¬ Surfaces (smallCrates [goneNode])
    (.apiGet "GetLinkResponse" Nodes.GetLinkResponse.ofJson "/drive/shares/s/links/l")
    (rejection goneNode) 2501 (some "This node is gone") :=
  fun h => nomatch (surfaces_iff _ _ (rejection goneNode) _ _ goneNode_error).mp h

end ProtonDrive
