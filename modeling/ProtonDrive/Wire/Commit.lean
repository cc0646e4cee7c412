import ProtonDrive.Session.Bearer
import ProtonDrive.Session.Clients
import ProtonDrive.Upload.Checksum
import ProtonDrive.Upload.Commit
import ProtonDrive.Wire.Retries

/-!
# The commit of an upload on the wire

The core sends the commit at most once.  The clients under it may send it again, after a 401 with the tokens
of a refresh, and after a failure of the server or of the connection:

* `putSend`, `puts`    the `PUT`s on the wire;
* `OwnTurn`            a caller sends its own request at most twice, the second time after a 401;
* `Transmitted`        the transport sends the request it is given, again and again;
* `stacked_puts`       both: every `PUT` but the last was answered so that it is sent again;
* `commit_on_wire`     in every run of an upload over the clients, every `PUT` is the commit, of which the
                       core has the evidence, and each is a copy of the one before.
-/

set_option linter.unusedVariables false

namespace ProtonDrive
open Encoding Effects Api Paths

/-! ## the `PUT`s on the wire -/

def HttpMethod.isPut (method : HttpMethod) : Bool := method = .put

def WireCall.isPut : WireCall → Bool
  | .send wire => wire.method.isPut
  | _ => false

def StackCall.isPut : StackCall → Bool
  | .session _ => false
  | .wire c => c.isPut

def AppCall.isPut : AppCall → Bool
  | .core _ => false
  | .stack c => c.isPut

/-- the requests of a session that the transport sends as a `PUT` -/
def SessionCall.isPut : SessionCall → Bool
  | .requestJson req => req.method.isPut
  | .requestBlob req => req.method.isPut
  | _ => false

def wirePut : Event wireHost → Option (WireRequest × WireAnswer)
  | ⟨.send wire, a⟩ => if wire.method.isPut then some (wire, a) else none
  | _ => none

def stackPut : Event stackHost → Option (WireRequest × WireAnswer)
  | ⟨.session _, _⟩ => none
  | ⟨.wire c, a⟩ => wirePut ⟨c, a⟩

def putSend : Event appHost → Option (WireRequest × WireAnswer)
  | ⟨.core _, _⟩ => none
  | ⟨.stack c, a⟩ => stackPut ⟨c, a⟩

/-- the `PUT`s on the wire, and their answers -/
def puts (low : Trace appHost) : List (WireRequest × WireAnswer) := low.filterMap putSend

theorem wirePut_isSome (e : Event wireHost) : (wirePut e).isSome = e.call.isPut := by
  obtain ⟨c, a⟩ := e
  cases c with
  | send wire =>
    show (if wire.method.isPut then some (wire, a) else none).isSome = wire.method.isPut
    cases wire.method.isPut <;> rfl
  | jitter below => rfl
  | sleepMillis ms => rfl

theorem stackPut_isSome (e : Event stackHost) : (stackPut e).isSome = e.call.isPut := by
  obtain ⟨c, a⟩ := e
  cases c with
  | session c => rfl
  | wire c => exact wirePut_isSome ⟨c, a⟩

theorem putSend_isSome (e : Event appHost) : (putSend e).isSome = e.call.isPut := by
  obtain ⟨c, a⟩ := e
  cases c with
  | core c => rfl
  | stack c => exact stackPut_isSome ⟨c, a⟩

theorem wirePut_some {e : Event wireHost} {x : WireRequest × WireAnswer} (h : wirePut e = some x) :
    e = ⟨.send x.1, x.2⟩ ∧ x.1.method.isPut = true := by
  obtain ⟨c, a⟩ := e
  cases c with
  | send wire =>
    change (if wire.method.isPut then some (wire, a) else none) = some x at h
    by_cases hput : wire.method.isPut = true
    · rw [if_pos hput] at h
      cases h
      exact ⟨rfl, hput⟩
    · rw [if_neg hput] at h
      cases h
  | jitter below => cases h
  | sleepMillis ms => cases h

/-- after the answer `a` the request is sent again -/
def SentAgain (a : WireAnswer) : Prop := Transient a ∨ ∃ resp, a = .ok resp ∧ resp.status = 401

/-- the second is a copy of the first, whose answer asked for it; the copy of a commit may carry other
tokens -/
structure Resent (x y : WireRequest × WireAnswer) : Prop where
  url : y.1.url = x.1.url
  query : y.1.query = x.1.query
  body : y.1.body = x.1.body
  again : SentAgain x.2

/-! ## the requests of a caller -/

inductive OwnPhase where
  | fresh
  | once (a : Handed)
  | twice

/-- a call that is neither a request of the caller nor a `PUT`, the request, and the request after a 401 -/
inductive OwnTurn (Own : Event sessionHost → Handed → Prop) :
    OwnPhase → Event sessionHost → OwnPhase → Prop
  | quiet (q) {e} (h : e.call.isPut = false) : OwnTurn Own q e q
  | first {e a} (h : Own e a) : OwnTurn Own .fresh e (.once a)
  | again {e a resp} (h : Own e a) (h401 : resp.status = 401) : OwnTurn Own (.once (.ok resp)) e .twice

section
variable {Own : Event sessionHost → Handed → Prop} {tr : Trace sessionHost} {p q : OwnPhase}

/-- what is known of two `PUT`s of a session, the second of which came later -/
def OwnPair (Own : Event sessionHost → Handed → Prop) (x y : Event sessionHost) : Prop :=
  x.call.isPut = true → y.call.isPut = true →
    (∃ resp : JsonResponse, Own x (.ok resp) ∧ resp.status = 401) ∧ ∃ a, Own y a

/-- how many requests are left to the caller -/
def OwnPhase.left : OwnPhase → Nat
  | .fresh => 2
  | .once _ => 1
  | .twice => 0

theorem own_count (h : Path (OwnTurn Own) p tr q) : (tr.countP fun e => e.call.isPut) ≤ p.left := by
  induction h with
  | nil => exact Nat.zero_le _
  | @cons p e q l r hstep _ ih =>
    have hone : (if e.call.isPut = true then 1 else 0) ≤ 1 := by
      by_cases he : e.call.isPut = true <;> simp [he]
    rw [List.countP_cons]
    cases hstep with
    | quiet _ hquiet =>
      rw [hquiet]
      exact ih
    | first hown => exact Nat.add_le_add ih hone
    | again hown h401 => exact Nat.add_le_add ih hone

theorem own_put (h : Path (OwnTurn Own) p tr q) {e : Event sessionHost} (he : e ∈ tr)
    (hput : e.call.isPut = true) :
    (∃ a, Own e a) ∧ ∀ a, p = .once a → ∃ resp : JsonResponse, a = .ok resp ∧ resp.status = 401 := by
  induction h with
  | nil => cases he
  | @cons p x q l r hstep hrest ih =>
    rcases List.mem_cons.mp he with rfl | he
    · cases hstep with
      | quiet _ hquiet =>
        rw [hquiet] at hput
        cases hput
      | first hown => exact ⟨⟨_, hown⟩, nofun⟩
      | again hown h401 =>
        refine ⟨⟨_, hown⟩, fun a ha => ?_⟩
        cases ha
        exact ⟨_, rfl, h401⟩
    · obtain ⟨hown, hrejected⟩ := ih he
      cases hstep with
      | quiet _ hquiet => exact ⟨hown, hrejected⟩
      | first _ => exact ⟨hown, nofun⟩
      | again _ h401 =>
        refine ⟨hown, fun a ha => ?_⟩
        cases ha
        exact ⟨_, rfl, h401⟩

theorem own_pairwise (h : Path (OwnTurn Own) p tr q) : tr.Pairwise (OwnPair Own) := by
  induction h with
  | nil => exact .nil
  | @cons p x q l r hstep hrest ih =>
    refine List.pairwise_cons.mpr ⟨fun y hy hx hput => ?_, ih⟩
    obtain ⟨hown, hrejected⟩ := own_put hrest hy hput
    cases hstep with
    | quiet _ hquiet =>
      rw [hquiet] at hx
      cases hx
    | @first _ a hfirst =>
      obtain ⟨resp, rfl, h401⟩ := hrejected _ rfl
      exact ⟨⟨resp, hfirst, h401⟩, hown⟩
    | again hagain h401 =>
      -- after the second request there is no other
      have hnone := own_count hrest
      have hsome : 0 < l.countP fun e => e.call.isPut := List.countP_pos_iff.mpr ⟨y, hy, hput⟩
      exact absurd hsome (Nat.not_lt.mpr hnone)

end

/-! ### a refresh -/

section
variable {K : Crates} {st : SessionState}

theorem putless_doRefresh : Only (S := sessionHost) (fun c => c.isPut = false) (doRefresh K st).run := by
  refine Only.of_runs session_answers fun tr o h => ?_
  obtain ⟨q, hpath, _⟩ := doRefresh_path h
  exact hpath.labels (I := fun e => e.call.isPut = false) fun p e q hturn => by cases hturn <;> rfl

theorem putless_settle (r : Except SessionManagerError SessionState) :
    Only (S := sessionHost) (fun c => c.isPut = false) (settle r).run := by
  cases r with
  | ok st => exact Only.bindE (only_ask rfl) fun _ => only_ask rfl
  | error e => exact only_ask rfl

theorem putless_forceRefresh :
    Only (S := sessionHost) (fun c => c.isPut = false) (forceRefresh K).run :=
  Only.bindE (only_ask rfl) fun _ => Only.bindE (only_caught putless_doRefresh) fun r =>
    Only.bindE (putless_settle r) fun _ => only_orFail _ _

end

/-! ### a request -/

/-- `inner` makes one request, which is one of `Own` -/
def MakesOwn {Req : Type} (inner : Req → SessionAware JsonResponse)
    (authed : List (String × String) → Req → Req) (req : Req) (Own : Event sessionHost → Handed → Prop) :
    Prop :=
  ∀ auth tr o, Runs (inner (authed auth req)).run tr o → (tr = [] ∧ o = .running) ∨
    ∃ e a, tr = [e] ∧ Own e a ∧ (o = .done a ∨ o = .running)

section
variable {K : Crates} {Req : Type} {inner : Req → SessionAware JsonResponse}
  {authed : List (String × String) → Req → Req} {req : Req} {Own : Event sessionHost → Handed → Prop}

theorem own_inner (hinner : MakesOwn inner authed req Own) {phase : OwnPhase} {next : Handed → OwnPhase}
    (hturn : ∀ e a, Own e a → OwnTurn Own phase e (next a)) (auth : List (String × String)) :
    Follows (OwnTurn Own) phase (inner (authed auth req)) fun r q => q = next r := by
  intro tr o h
  rcases hinner auth tr o h with ⟨rfl, rfl⟩ | ⟨e, a, rfl, hown, ho⟩
  · exact ⟨phase, .nil phase, nofun⟩
  · refine ⟨next a, .one (hturn e a hown), ?_⟩
    rintro r rfl
    rcases ho with ho | ho <;> cases ho
    rfl

theorem own_send (hinner : MakesOwn inner authed req Own) :
    Follows (OwnTurn Own) .fresh (SessionAwareHttpClient.send K inner authed req) fun _ _ => True := by
  refine follows_call (fun _ => .quiet .fresh rfl) fun st => ?_
  refine (own_inner hinner (fun _ _ hown => .first hown) st.authHeaders).bind ?_ fun _ _ _ => trivial
  rintro resp _ rfl
  by_cases hstatus : resp.status ≠ 401
  · rw [if_pos hstatus]
    exact follows_pure trivial
  · rw [if_neg hstatus]
    have hrefresh : Follows (OwnTurn Own) (.once (.ok resp)) (forceRefresh K)
        fun _ q => q = .once (.ok resp) := follows_only putless_forceRefresh fun _ hquiet => .quiet _ hquiet
    refine hrefresh.caught ?_
    rintro refreshed _ rfl
    match refreshed with
    | .ok _ =>
      refine follows_call (fun _ => .quiet _ rfl) fun st' => ?_
      have hagain : Follows (OwnTurn Own) (.once (.ok resp)) (inner (authed st'.authHeaders req))
          fun _ q => q = .twice :=
        own_inner hinner (fun _ _ hown => .again hown (not_not.mp hstatus)) st'.authHeaders
      intro tr o h
      obtain ⟨q, hpath, _⟩ := hagain tr o h
      exact ⟨q, hpath, fun _ _ => trivial⟩
    | .error .sessionExpired => exact follows_pure trivial
    | .error (.keyring _) => exact follows_pure trivial
    | .error (.io _) => exact follows_pure trivial
    | .error (.json _) => exact follows_pure trivial
    | .error (.http _) => exact follows_pure trivial
    | .error (.noKeyring _) => exact follows_pure trivial

end

/-- the request of the core, with headers put before its own -/
def OwnJson (req : JsonRequest) (e : Event sessionHost) (a : Handed) : Prop :=
  ∃ auth, e = ⟨.requestJson { req with headers := auth ++ req.headers }, a⟩

def OwnBlob (req : BlobRequest) (e : Event sessionHost) (a : Handed) : Prop :=
  ∃ auth, e = ⟨.requestBlob { req with headers := auth ++ req.headers }, a⟩

theorem own_json (K : Crates) (req : JsonRequest) :
    Follows (OwnTurn (OwnJson req)) .fresh (SessionAwareHttpClient.requestJson K req) fun _ _ => True := by
  refine own_send fun auth tr o h => ?_
  rcases Runs.call_inv h with ⟨rfl, rfl⟩ | ⟨a, t, rfl, k⟩
  · exact .inl ⟨rfl, rfl⟩
  · obtain ⟨rfl, ho⟩ := Runs.ret_inv k
    exact .inr ⟨_, a, rfl, ⟨auth, rfl⟩, ho⟩

theorem own_blob (K : Crates) (req : BlobRequest) :
    Follows (OwnTurn (OwnBlob req)) .fresh (SessionAwareHttpClient.requestBlob K req) fun _ _ => True := by
  refine own_send fun auth tr o h => ?_
  rcases Runs.call_inv h with ⟨rfl, rfl⟩ | ⟨a, t, rfl, k⟩
  · exact .inl ⟨rfl, rfl⟩
  · obtain ⟨rfl, ho⟩ := Runs.ret_inv k
    exact .inr ⟨_, a, rfl, ⟨auth, rfl⟩, ho⟩

/-! ## the transport -/

def wireBody : Option Json → WireBody
  | some doc => .json doc
  | none => .none

def contentType : Option Json → List (String × String)
  | some _ => [("content-type", "application/json")]
  | none => []

/-- the request that the transport makes of a request of a session -/
def ReqwestHttpClient.wireJson (client : ReqwestHttpClient) (req : JsonRequest) : WireRequest where
  method := req.method
  url := client.joined req.path
  query := req.query
  headers := req.headers ++ contentType req.body
  body := wireBody req.body

section
variable {client : ReqwestHttpClient} {wire : WireRequest} {t : Trace stackHost}

theorem requestJson_eq (req : JsonRequest) :
    client.requestJson req = client.sendWithRetry (client.wireJson req) := by
  unfold ReqwestHttpClient.requestJson ReqwestHttpClient.wireJson
  cases req.body with
  | some doc => rfl
  | none => simp only [contentType, List.append_nil, wireBody]

/-- the `PUT`s of the transport that is to send `wire` -/
structure Transmitted (client : ReqwestHttpClient) (wire : WireRequest) (t : Trace stackHost) : Prop where
  same : ∀ x ∈ t.filterMap stackPut, x.1 = client.stamped wire ∧ wire.method.isPut = true
  again : (t.filterMap stackPut).Pairwise fun x _ => Transient x.2
  few : (t.filterMap stackPut).length ≤ client.maxAttempts

theorem filterMap_onWire (tr : Trace wireHost) :
    (tr.map Event.onWire).filterMap stackPut = tr.filterMap wirePut := List.filterMap_map ..

theorem retries_puts (i : Nat) (fails : List Repeated) :
    ((retries wire i fails).filterMap wirePut).length ≤ fails.length := by
  induction fails generalizing i with
  | nil => exact Nat.le_refl _
  | cons f fails ih =>
    have hone : ((f.events wire i).filterMap wirePut).length ≤ 1 := by
      show (([⟨.send wire, f.answer⟩] ++ [⟨.jitter (pauseMs i / 2 + 1), f.jitter⟩,
        ⟨.sleepMillis (pauseMs i + f.jitter), ()⟩] : Trace wireHost).filterMap wirePut).length ≤ 1
      rw [List.filterMap_append, List.length_append]
      exact Nat.add_le_add (List.length_filterMap_le _ _) (Nat.le_refl 0)
    show ((f.events wire i ++ retries wire (i + 1) fails).filterMap wirePut).length ≤ _
    rw [List.filterMap_append, List.length_append, List.length_cons]
    have := ih (i + 1)
    omega

theorem transmitted {o : Outcome (Except Error JsonResponse)}
    (h : Runs (onWire (client.sendWithRetry wire)) t o) : Transmitted client wire t := by
  obtain ⟨tr, rfl, hrun⟩ := onWire_renamed h
  constructor
  · rw [filterMap_onWire]
    intro x hx
    obtain ⟨e, he, hput⟩ := List.mem_filterMap.mp hx
    obtain ⟨rfl, hmethod⟩ := wirePut_some hput
    obtain ⟨pre, post, rfl⟩ := List.append_of_mem he
    obtain ⟨hwire, _⟩ := sendWithRetry_repeats hrun
    rw [hwire] at hmethod
    exact ⟨hwire, hmethod⟩
  · rw [filterMap_onWire, List.pairwise_filterMap, List.pairwise_iff_forall_sublist]
    intro e e' hsub x hx y hy
    obtain ⟨r₁, r₂, rfl, he, he'⟩ := List.cons_sublist_iff.mp hsub
    obtain ⟨pre, mid, rfl⟩ := List.append_of_mem he
    obtain ⟨rfl, _⟩ := wirePut_some hx
    obtain ⟨rfl, _⟩ := wirePut_some hy
    rw [List.append_assoc, List.cons_append] at hrun
    have hmem := List.mem_append_right mid (List.singleton_sublist.mp he')
    exact (sendWithRetry_repeats hrun).2 _ _ hmem
  · rw [filterMap_onWire]
    by_cases hmax : client.maxAttempts = 0
    · unfold ReqwestHttpClient.sendWithRetry at hrun
      rw [hmax] at hrun
      obtain ⟨rfl, _⟩ := Runs.ret_inv hrun
      exact Nat.zero_le _
    · obtain ⟨tr', r, hdone⟩ := Runs.completes (atMost_attempts _ _ _) wire_answers hrun
      obtain ⟨fails, answer, hattempted⟩ := (sendWithRetry_attempts hmax).mp hdone
      have hwhole : ((tr ++ tr').filterMap wirePut).length ≤ fails.length + 1 := by
        rw [hattempted.trace, List.filterMap_append, List.length_append]
        exact Nat.add_le_add (retries_puts 0 fails) (List.length_filterMap_le _ _)
      rw [List.filterMap_append, List.length_append] at hwhole
      have := hattempted.few
      omega

/-- every answer that has led to a response is transient, or is the response -/
theorem sendWithRetry_answered {tr : Trace wireHost} {resp : JsonResponse} {wire' : WireRequest}
    {a : WireAnswer} (h : Runs (client.sendWithRetry wire).run tr (.done (.ok resp)))
    (hmem : (⟨.send wire', a⟩ : Event wireHost) ∈ tr) :
    Transient a ∨ ∃ wresp, a = .ok wresp ∧ wresp.status = resp.status := by
  by_cases hmax : client.maxAttempts = 0
  · unfold ReqwestHttpClient.sendWithRetry at h
    rw [hmax] at h
    obtain ⟨rfl, _⟩ := Runs.ret_inv h
    cases hmem
  · obtain ⟨fails, answer, hattempted⟩ := (sendWithRetry_attempts hmax).mp h
    rw [hattempted.trace] at hmem
    rcases List.mem_append.mp hmem with hmem | hmem
    · obtain ⟨_, f, hf, rfl⟩ := mem_retries hmem
      exact .inl (hattempted.repeated f hf)
    · cases List.mem_singleton.mp hmem
      refine .inr ?_
      match a, hattempted.result with
      | .ok wresp, hresult =>
        refine ⟨wresp, rfl, ?_⟩
        change _ = (if wresp.status = 429 then _ else _) at hresult
        by_cases hlimit : wresp.status = 429
        · rw [if_pos hlimit] at hresult
          cases hresult
        · rw [if_neg hlimit] at hresult
          cases hbody : wresp.body with
          | error e =>
            rw [hbody] at hresult
            cases hresult
          | ok bytes =>
            rw [hbody] at hresult
            cases hresult
            rfl

end

/-! ## a request over both clients -/

section
variable {K : Crates} {client : ReqwestHttpClient} {t : Trace stackHost}

theorem overReqwest_json {req : JsonRequest} {o : Outcome (Except Error JsonResponse)}
    (h : Runs (overReqwest client (.requestJson req)) t o) : Transmitted client (client.wireJson req) t := by
  have hsend : Runs (onWire (client.requestJson req)) t o := h
  rw [requestJson_eq] at hsend
  exact transmitted hsend

/-- what answers led to a 401 -/
theorem overReqwest_answered {req : JsonRequest} {resp : JsonResponse} (h401 : resp.status = 401)
    (h : Runs (overReqwest client (.requestJson req)) t (.done (.ok resp))) :
    ∀ x ∈ t.filterMap stackPut, SentAgain x.2 := by
  have hsend : Runs (onWire (client.requestJson req)) t (.done (.ok resp)) := h
  rw [requestJson_eq] at hsend
  obtain ⟨tr, rfl, hrun⟩ := onWire_done hsend
  intro x hx
  rw [filterMap_onWire] at hx
  obtain ⟨e, he, hput⟩ := List.mem_filterMap.mp hx
  obtain ⟨rfl, _⟩ := wirePut_some hput
  refine (sendWithRetry_answered hrun he).imp id ?_
  rintro ⟨wresp, ha, hstatus⟩
  exact ⟨wresp, ha, hstatus.trans h401⟩

theorem stackPut_count (t : Trace stackHost) :
    (t.countP fun e => e.call.isPut) = (t.filterMap stackPut).length := by
  rw [List.length_filterMap_eq_countP]
  congr 1
  funext e
  exact (stackPut_isSome e).symm

theorem overReqwest_putless {c : SessionCall} (hc : c.isPut = false) {o : Outcome c.Ans}
    (h : Runs (overReqwest client c) t o) : t.filterMap stackPut = [] := by
  cases c with
  | requestJson req =>
    refine List.eq_nil_iff_forall_not_mem.mpr fun x hx => ?_
    have hput := ((overReqwest_json h).same x hx).2
    exact Bool.false_ne_true (hc.symm.trans hput)
  | requestBlob req =>
    have hsend : Runs (onWire (client.requestBlob req)) t o := h
    unfold ReqwestHttpClient.requestBlob at hsend
    cases hurl : client.blobUrl req.path with
    | error e =>
      rw [hurl] at hsend
      obtain ⟨rfl, _⟩ := Runs.ret_inv hsend
      rfl
    | ok url =>
      rw [hurl] at hsend
      refine List.eq_nil_iff_forall_not_mem.mpr fun x hx => ?_
      have hput := ((transmitted hsend).same x hx).2
      exact Bool.false_ne_true (hc.symm.trans hput)
  | _ =>
    have hone := perform_runs h
    rcases hone with rfl | ⟨a, rfl⟩ <;> rfl

/-! ### where the `PUT`s come from -/

/-- the call is the request of the core, or no `PUT` -/
def IsOwn (req : JsonRequest) (c : SessionCall) : Prop :=
  c.isPut = true → ∃ auth, c = .requestJson { req with headers := auth ++ req.headers }

theorem only_own (K : Crates) (req : JsonRequest) :
    Only (S := sessionHost) (IsOwn req) (SessionAwareHttpClient.requestJson K req).run := by
  refine Only.of_runs session_answers fun tr o h e he hput => ?_
  obtain ⟨q, hpath, _⟩ := own_json K req tr o h
  obtain ⟨⟨a, auth, hown⟩, _⟩ := own_put hpath he hput
  exact ⟨auth, congrArg Event.call hown⟩

theorem putless_json {req : JsonRequest} (hreq : req.method.isPut = false) :
    Only (S := sessionHost) (fun c => c.isPut = false) (SessionAwareHttpClient.requestJson K req).run := by
  refine (only_own K req).mono fun c hown => ?_
  by_contra hput
  obtain ⟨auth, rfl⟩ := hown (Bool.eq_true_of_not_eq_false hput)
  exact hput hreq

theorem putless_blob {req : BlobRequest} (hreq : req.method.isPut = false) :
    Only (S := sessionHost) (fun c => c.isPut = false) (SessionAwareHttpClient.requestBlob K req).run := by
  refine Only.of_runs session_answers fun tr o h e he => ?_
  by_contra hput
  obtain ⟨q, hpath, _⟩ := own_blob K req tr o h
  obtain ⟨⟨a, auth, rfl⟩, _⟩ := own_put hpath he (Bool.eq_true_of_not_eq_false hput)
  exact hput hreq

theorem putless_over {α : Type} {p : Prog sessionHost α}
    (hp : Only (S := sessionHost) (fun c => c.isPut = false) p) :
    MakesAtMost StackCall.isPut (p.handle (overReqwest client)) 0 := by
  refine MakesAtMost.handle (m := 0) (n := 0) session_answers hp (MakesAtMost.of_only hp) fun c hc => ?_
  rw [hc]
  intro t o h
  rw [stackPut_count, overReqwest_putless hc h]
  exact Nat.le_refl 0

/-! ### copies -/

theorem stacked_count (K : Crates) (client : ReqwestHttpClient) (req : JsonRequest) :
    MakesAtMost StackCall.isPut (stackedJson K client req) (client.maxAttempts * 2) := by
  refine MakesAtMost.handle (B := SessionCall.isPut) session_answers (only_own K req) ?_ ?_
  · intro tr o h
    obtain ⟨q, hpath, _⟩ := own_json K req tr o h
    exact own_count hpath
  · intro c hown t o h
    rw [stackPut_count]
    by_cases hput : c.isPut = true
    · rw [if_pos hput]
      obtain ⟨auth, rfl⟩ := hown hput
      exact (overReqwest_json h).few
    · rw [if_neg hput, overReqwest_putless (Bool.eq_false_of_not_eq_true hput) h]
      exact Nat.le_refl 0

theorem stacked_resent {req : JsonRequest} {low : Trace stackHost} {o : Outcome (Except Error JsonResponse)}
    (h : Runs (stackedJson K client req) low o) : (low.filterMap stackPut).Pairwise Resent := by
  rw [List.pairwise_filterMap]
  refine Runs.handle_pairwise (OwnPair (OwnJson req)) session_answers (only_own K req) ?_ ?_ ?_ h
  · intro tr hrun
    obtain ⟨q, hpath, _⟩ := own_json K req tr _ hrun
    exact own_pairwise hpath
  · intro c t o hown hc
    rw [← List.pairwise_filterMap]
    by_cases hput : c.isPut = true
    · -- the attempts of one request
      obtain ⟨auth, rfl⟩ := hown hput
      have hsent := overReqwest_json hc
      refine List.Pairwise.imp_of_mem ?_ hsent.again
      intro x y hx hy htransient
      have hxw := (hsent.same x hx).1
      have hyw := (hsent.same y hy).1
      exact ⟨by rw [hxw, hyw], by rw [hxw, hyw], by rw [hxw, hyw], .inl htransient⟩
    · rw [overReqwest_putless (Bool.eq_false_of_not_eq_true hput) hc]
      exact .nil
  · intro e₁ e₂ t₁ t₂ o₂ hown₁ hown₂ hpair h₁ h₂ ev hev ev' hev' x hx y hy
    have hx' : x ∈ t₁.filterMap stackPut := List.mem_filterMap.mpr ⟨ev, hev, hx⟩
    have hy' : y ∈ t₂.filterMap stackPut := List.mem_filterMap.mpr ⟨ev', hev', hy⟩
    have hput₁ : e₁.call.isPut = true := by
      by_contra hput
      rw [overReqwest_putless (Bool.eq_false_of_not_eq_true hput) h₁] at hx'
      cases hx'
    have hput₂ : e₂.call.isPut = true := by
      by_contra hput
      rw [overReqwest_putless (Bool.eq_false_of_not_eq_true hput) h₂] at hy'
      cases hy'
    -- the request before a refresh, which was answered with 401, and the one after it
    obtain ⟨⟨resp, ⟨auth, rfl⟩, h401⟩, a, auth', rfl⟩ := hpair hput₁ hput₂
    have hxw := ((overReqwest_json h₁).same x hx').1
    have hyw := ((overReqwest_json h₂).same y hy').1
    refine ⟨?_, ?_, ?_, overReqwest_answered h401 h₁ x hx'⟩ <;> rw [hxw, hyw] <;> rfl

theorem stacked_same {req : JsonRequest} {low : Trace stackHost} {o : Outcome (Except Error JsonResponse)}
    (h : Runs (stackedJson K client req) low o) {x : WireRequest × WireAnswer}
    (hx : x ∈ low.filterMap stackPut) :
    x.1.url = client.joined req.path ∧ x.1.query = req.query ∧ x.1.body = wireBody req.body := by
  obtain ⟨e, he, hput⟩ := List.mem_filterMap.mp hx
  obtain ⟨pre, post, rfl⟩ := List.append_of_mem he
  obtain ⟨tr, c, low₁, t, rfl, _, hrun, hc⟩ := Runs.handle_origin h
  obtain ⟨a⟩ := session_answers c
  have hown := (hrun a).only (only_own K req) ⟨c, a⟩ (List.mem_append_right _ List.mem_cons_self)
  have hmem : x ∈ (t ++ [e]).filterMap stackPut :=
    List.mem_filterMap.mpr ⟨e, List.mem_append_right _ List.mem_cons_self, hput⟩
  by_cases hc' : c.isPut = true
  · obtain ⟨auth, rfl⟩ := hown hc'
    have hsame := ((overReqwest_json hc).same x hmem).1
    exact ⟨by rw [hsame]; rfl, by rw [hsame]; rfl, by rw [hsame]; rfl⟩
  · rw [overReqwest_putless (Bool.eq_false_of_not_eq_true hc') hc] at hmem
    cases hmem

end

/-! ## an upload over the clients -/

section
variable {K : Crates} {client : ReqwestHttpClient} {up : ProtonFileUploader} {fuel : Nat}

/-- a blob request is no `PUT` -/
def PostsBlobs (c : HostCall) : Prop := ∀ req, c = .requestBlob req → req.method.isPut = false

theorem only_runUpload : Only (S := host) PostsBlobs (runUpload K up fuel).run := by
  have hblob : ∀ req : BlobRequest, req.method = .post → PostsBlobs (.requestBlob req) := by
    intro req hreq req' heq
    cases heq
    rw [hreq]
    rfl
  refine Only.bindE (only_createDraft (fun _ => nofun) (fun _ _ => nofun) nofun) fun d => ?_
  refine Only.bindE (only_readBlocks (fun _ => nofun) nofun nofun (fun _ => nofun) _ _) fun s => ?_
  refine Only.bindE (only_requestBlocks fun _ => nofun) fun links => ?_
  refine Only.bindE (only_putBlocks nofun fun pair _ => hblob _ rfl) fun _ => ?_
  exact Only.bindE (only_commitRequest nofun) fun req => only_commitRevision (fun _ _ => nofun) fun _ => nofun

theorem commits_few {tr : Trace host} {o : Outcome (Except Fault Unit)}
    (h : Runs (runUpload K up fuel).run tr o) : (commits tr).length ≤ 1 := by
  rcases runUpload_discipline h with hnone | ⟨pre, req, ans, post, rfl, hput, hpre, hpost, _⟩
  · rw [hnone]
    exact Nat.zero_le 1
  · rw [commits_append, hpre]
    show (commits ([_] ++ post)).length ≤ 1
    rw [commits_append, hpost, List.append_nil]
    exact List.length_filter_le _ _

/-- a run that has come to the commit has the evidence for it -/
theorem evidence_of_commit {tr : Trace host} {req : JsonRequest} {a : Except Error JsonResponse}
    (hreq : isCommit (.requestJson req) = true)
    (h : Runs (runUpload K up fuel).run (tr ++ [⟨.requestJson req, a⟩]) .running) :
    commits tr = [] ∧ Nonempty (CommitEvidence K up tr req) := by
  have hlast : commits [(⟨.requestJson req, a⟩ : Event host)] = [⟨.requestJson req, a⟩] :=
    List.filter_cons_of_pos hreq
  have hfew := commits_few h
  rw [commits_append, hlast, List.length_append] at hfew
  have hnone : commits tr = [] := List.eq_nil_of_length_eq_zero (by simpa using hfew)
  refine ⟨hnone, ?_⟩
  rcases runUpload_discipline h with hnil | ⟨pre, req', ans, post, heq, hput, hpre, hpost, hevidence⟩
  · rw [commits_append, hlast] at hnil
    simp at hnil
  · -- nothing comes after the commit that was found, so it is the last call
    rcases List.eq_nil_or_concat' post with rfl | ⟨post', e, rfl⟩
    · obtain ⟨rfl, hcommit⟩ := List.append_inj' heq rfl
      cases hcommit
      exact hevidence
    · rw [← List.cons_append, ← List.append_assoc] at heq
      obtain ⟨_, he⟩ := List.append_inj' heq rfl
      cases he
      rw [commits_append, hlast] at hpost
      simp at hpost

theorem puts_count (t : Trace appHost) : (t.countP fun e => e.call.isPut) = (puts t).length := by
  unfold puts
  rw [List.length_filterMap_eq_countP]
  congr 1
  funext e
  exact (putSend_isSome e).symm

theorem puts_onStack (tr : Trace stackHost) : puts (tr.map Event.onStack) = tr.filterMap stackPut :=
  List.filterMap_map ..

theorem onStack_count {α : Type} {p : Prog stackHost α} {n : Nat} (h : MakesAtMost StackCall.isPut p n) :
    MakesAtMost AppCall.isPut (onStack p) n := by
  intro low o hrun
  obtain ⟨tr, rfl, hstack⟩ := onStack_renamed hrun
  rw [puts_count, puts_onStack, ← stackPut_count]
  exact h tr _ hstack

/-- what is not the commit puts no `PUT` on the wire -/
theorem overClients_count (c : HostCall) (hc : PostsBlobs c) :
    MakesAtMost AppCall.isPut (overClients K client c)
      (if isCommit c then client.maxAttempts * 2 else 0) := by
  have hcore : ∀ c : HostCall, MakesAtMost AppCall.isPut (Prog.perform (S := appHost) (.core c)) 0 := by
    intro c low o h
    rcases perform_runs h with rfl | ⟨a, rfl⟩ <;> exact Nat.le_refl 0
  cases c with
  | requestJson req =>
    by_cases hput : isCommit (.requestJson req) = true
    · rw [if_pos hput]
      exact onStack_count (stacked_count K client req)
    · rw [if_neg hput]
      exact onStack_count (putless_over (putless_json (Bool.eq_false_of_not_eq_true hput)))
  | requestBlob req => exact onStack_count (putless_over (putless_blob (hc req rfl)))
  | _ => exact hcore _

theorem overClients_none {c : HostCall} (hc : PostsBlobs c) (hcommit : isCommit c = false)
    {t : Trace appHost} {o : Outcome c.Ans} (h : Runs (overClients K client c) t o) : puts t = [] := by
  have hcount := overClients_count c hc t o h
  rw [hcommit, puts_count] at hcount
  exact List.eq_nil_of_length_eq_zero (Nat.le_zero.mp hcount)

theorem overClients_commit {c : HostCall} (hc : PostsBlobs c) {t : Trace appHost} {o : Outcome c.Ans}
    (h : Runs (overClients K client c) t o) {x : WireRequest × WireAnswer} (hx : x ∈ puts t) :
    isCommit c = true := by
  by_contra hne
  rw [overClients_none hc (Bool.eq_false_of_not_eq_true hne) h] at hx
  cases hx

variable {low : Trace appHost} {o : Outcome (Except Fault Unit)}

theorem deployed_count (h : Runs (deployed K client (runUpload K up fuel)) low o) :
    (puts low).length ≤ client.maxAttempts * 2 := by
  have honce : MakesAtMost isCommit (runUpload K up fuel).run 1 := by
    intro tr o hrun
    rw [List.countP_eq_length_filter]
    exact commits_few hrun
  have hcount : MakesAtMost AppCall.isPut (deployed K client (runUpload K up fuel))
      (client.maxAttempts * 2 * 1) :=
    MakesAtMost.handle host_answers only_runUpload honce overClients_count
  rw [← puts_count, ← Nat.mul_one (client.maxAttempts * 2)]
  exact hcount low o h

theorem deployed_resent (h : Runs (deployed K client (runUpload K up fuel)) low o) :
    (puts low).Pairwise Resent := by
  unfold puts
  rw [List.pairwise_filterMap]
  refine Runs.handle_pairwise (fun x y => isCommit x.call = true → isCommit y.call = true → False)
    host_answers only_runUpload ?_ ?_ ?_ h
  · intro tr hrun
    rw [← List.pairwise_filter]
    have hfew := commits_few hrun
    change List.Pairwise _ (commits tr)
    generalize commits tr = l at hfew ⊢
    match l, hfew with
    | [], _ => exact .nil
    | [e], _ => exact List.pairwise_singleton _ _
  · -- the copies of one request
    intro c t o hc hrun
    rw [← List.pairwise_filterMap]
    change (puts t).Pairwise Resent
    by_cases hcommit : isCommit c = true
    · cases c with
      | requestJson req =>
        obtain ⟨tr, rfl, hstack⟩ := onStack_renamed hrun
        rw [puts_onStack]
        exact stacked_resent hstack
      | _ => cases hcommit
    · rw [overClients_none hc (Bool.eq_false_of_not_eq_true hcommit) hrun]
      exact .nil
  · intro e₁ e₂ t₁ t₂ o₂ hc₁ hc₂ hpair h₁ h₂ x hx y hy b hb b' hb'
    have hcommit₁ := overClients_commit hc₁ h₁ (List.mem_filterMap.mpr ⟨x, hx, hb⟩)
    have hcommit₂ := overClients_commit hc₂ h₂ (List.mem_filterMap.mpr ⟨y, hy, hb'⟩)
    exact absurd (hpair hcommit₁ hcommit₂) id

/-- when the `PUT` is sent: what the core has done, and what that came to on the wire -/
structure SentAt (K : Crates) (client : ReqwestHttpClient) (up : ProtonFileUploader) (pre : Trace appHost)
    (x : WireRequest × WireAnswer) (tr : Trace host) (req : JsonRequest) : Prop where
  core : ∃ low t, pre = low ++ t ∧ Layered (overClients K client) tr low ∧ puts low = []
  evidence : Nonempty (CommitEvidence K up tr req)
  url : x.1.url = client.joined req.path
  query : x.1.query = req.query
  body : x.1.body = wireBody req.body

theorem deployed_sentAt {pre post : Trace appHost} {e : Event appHost} {x : WireRequest × WireAnswer}
    (h : Runs (deployed K client (runUpload K up fuel)) (pre ++ e :: post) o) (hx : putSend e = some x) :
    ∃ tr req, SentAt K client up pre x tr req := by
  obtain ⟨tr, c, low, t, rfl, hl, hrun, hc⟩ := Runs.handle_origin h
  obtain ⟨a⟩ := host_answers c
  have hcalls := (hrun a).only only_runUpload
  have hposts := hcalls ⟨c, a⟩ (List.mem_append_right _ List.mem_cons_self)
  have hput : x ∈ puts (t ++ [e]) :=
    List.mem_filterMap.mpr ⟨e, List.mem_append_right _ List.mem_cons_self, hx⟩
  have hcommit := overClients_commit hposts hc hput
  cases c with
  | requestJson req =>
    obtain ⟨hnone, hevidence⟩ := evidence_of_commit hcommit (hrun a)
    have hcount := hl.count_le (A := AppCall.isPut) (B := isCommit)
      fun e he => overClients_count e.call (hcalls e (List.mem_append_left _ he))
    have hquiet : puts low = [] := by
      rw [puts_count, List.countP_eq_length_filter] at hcount
      change _ ≤ _ * (commits tr).length at hcount
      rw [hnone] at hcount
      exact List.eq_nil_of_length_eq_zero (Nat.le_zero.mp hcount)
    obtain ⟨low', heq, hstack⟩ := onStack_renamed hc
    rw [heq, puts_onStack] at hput
    obtain ⟨hurl, hquery, hbody⟩ := stacked_same hstack hput
    exact ⟨tr, req, ⟨low, t, rfl, hl, hquiet⟩, hevidence, hurl, hquery, hbody⟩
  | _ => cases hcommit

/-- every `PUT` on the wire is the commit, which the core has the evidence for, or a copy of it: there are
at most two for each attempt of the transport, and each but the last was answered so that it is sent again -/
theorem commit_on_wire (h : Runs (deployed K client (runUpload K up fuel)) low o) :
    (puts low).length ≤ client.maxAttempts * 2 ∧ (puts low).Pairwise Resent ∧
      ∀ pre e post x, low = pre ++ e :: post → putSend e = some x →
        ∃ tr req, SentAt K client up pre x tr req := by
  refine ⟨deployed_count h, deployed_resent h, ?_⟩
  rintro pre e post x rfl hx
  exact deployed_sentAt h hx

end

/-! ## answers that are handed on -/

/-- the answer to a request that settles it at once -/
def Prompt : Event host → Bool
  | ⟨.requestJson _, .ok resp⟩ => resp.status = 200
  | ⟨.requestJson _, .error _⟩ => false
  | ⟨.requestBlob req, .ok resp⟩ => resp.status = 200 && !startsWith req.path "http://"
  | ⟨.requestBlob _, .error _⟩ => false
  | _ => true

def JsonResponse.onWire (resp : JsonResponse) : WireResponse where
  status := resp.status
  headers := resp.headers.map fun h => (h.1, some h.2)
  body := .ok resp.body

section
variable {K : Crates} {client : ReqwestHttpClient} {resp : JsonResponse}

theorem sends_once (hmax : client.maxAttempts ≠ 0) (h200 : resp.status = 200) (wire : WireRequest) :
    Runs (onWire (client.sendWithRetry wire))
      [⟨.wire (.send (client.stamped wire)), .ok resp.onWire⟩] (.done (.ok resp)) := by
  have hheaders : (resp.headers.map fun h => (h.1, some h.2)).map
      (fun h : String × Option String => (h.1, h.2.getD "")) = resp.headers := by
    rw [List.map_map]
    exact List.map_id _
  have hverdict : verdict 1 (.ok resp.onWire) = .ok resp := by
    unfold verdict JsonResponse.onWire
    simp only [h200, Nat.reduceEqDiff, if_false, hheaders]
    rw [← h200]
  have hrun : Runs (client.sendWithRetry wire).run
      [⟨.send (client.stamped wire), .ok resp.onWire⟩] (.done (.ok resp)) := by
    refine (sendWithRetry_attempts hmax).mpr ⟨[], .ok resp.onWire, {
      few := Nat.pos_of_ne_zero hmax
      repeated := nofun
      settled := fun h => ?_
      result := hverdict.symm
      trace := rfl }⟩
    have hlow : 500 ≤ resp.status := h.2.1
    omega
  exact (Layered.named (f := Event.onWire) (fun c a => .call (.ret _)) _).runs hrun

/-- the state that the clients find -/
def plainState : SessionState := ⟨"", "", "", "", 0⟩

/-- a caller whose first request is answered with anything but a 401 -/
theorem caller_once {Req : Type} {inner : Req → SessionAware JsonResponse}
    {authed : List (String × String) → Req → Req} {req : Req} {e : Event sessionHost}
    (h401 : resp.status ≠ 401)
    (h : Runs (inner (authed plainState.authHeaders req)).run [e] (.done (.ok resp))) :
    Runs (SessionAwareHttpClient.send K inner authed req).run [⟨.readState, plainState⟩, e]
      (.done (.ok resp)) := by
  unfold SessionAwareHttpClient.send
  refine .call (Runs.bindE_one h ?_)
  rw [if_pos h401]
  exact .ret _

/-- the transport under a caller -/
theorem stacked_once {Req : Type} (inner : Req → SessionAware JsonResponse)
    (authed : List (String × String) → Req → Req) (req : Req) {e : Event sessionHost}
    {x : Event wireHost} (h401 : resp.status ≠ 401)
    (h : Runs (inner (authed plainState.authHeaders req)).run [e] (.done (.ok resp)))
    (hsend : Runs (overReqwest client e.call) [Event.onWire x] (.done e.ans)) :
    Runs (onStack ((SessionAwareHttpClient.send K inner authed req).run.handle (overReqwest client)))
      [⟨.stack (.session .readState), plainState⟩, ⟨.stack (.wire x.call), x.ans⟩] (.done (.ok resp)) := by
  have hl : Layered (overReqwest client) [(⟨.readState, plainState⟩ : Event sessionHost), e]
      [(⟨.session .readState, plainState⟩ : Event stackHost), Event.onWire x] :=
    .cons (t := ([⟨.session .readState, plainState⟩] : Trace stackHost)) (.call (.ret _)) (.one hsend)
  exact (Layered.named (f := Event.onStack) (fun c a => .call (.ret _)) _).runs
    (hl.runs (caller_once h401 h))

/-- a request that is answered so is on the wire once -/
theorem overClients_prompt (hmax : client.maxAttempts ≠ 0) (e : Event host) (he : Prompt e = true) :
    ∃ t, Runs (overClients K client e.call) t (.done e.ans) ∧ (isCommit e.call = true → puts t ≠ []) := by
  obtain ⟨c, a⟩ := e
  cases c with
  | requestJson req =>
    match a, he with
    | .ok resp, he =>
      have h200 : resp.status = 200 := of_decide_eq_true he
      let sent : JsonRequest := { req with headers := plainState.authHeaders ++ req.headers }
      have hsend : Runs (overReqwest client (.requestJson sent))
          [Event.onWire ⟨.send (client.stamped (client.wireJson sent)), .ok resp.onWire⟩]
          (.done (.ok resp)) := by
        have hwire := sends_once hmax h200 (client.wireJson sent)
        rw [← requestJson_eq] at hwire
        exact hwire
      have hstack := stacked_once (K := K) SessionAwareHttpClient.innerJson
        (fun auth req => { req with headers := auth ++ req.headers }) req
        (e := ⟨.requestJson sent, .ok resp⟩) (by omega) (.call (.ret _)) hsend
      refine ⟨_, hstack, ?_⟩
      intro hcommit hnil
      have hput : (client.stamped (client.wireJson sent)).method.isPut = true := hcommit
      have hsome : putSend ⟨.stack (.wire (.send (client.stamped (client.wireJson sent)))),
          .ok resp.onWire⟩ = some (client.stamped (client.wireJson sent), .ok resp.onWire) := if_pos hput
      simp [puts, hsome] at hnil
  | requestBlob req =>
    match a, he with
    | .ok resp, he =>
      obtain ⟨h200, hplain⟩ := Bool.and_eq_true_iff.mp he
      have h200 : resp.status = 200 := of_decide_eq_true h200
      let sent : BlobRequest := { req with headers := plainState.authHeaders ++ req.headers }
      have hurl : ∃ url, client.blobUrl sent.path = .ok url := by
        unfold ReqwestHttpClient.blobUrl
        by_cases hhttps : startsWith sent.path "https://" = true
        · exact ⟨_, if_pos hhttps⟩
        · rw [if_neg hhttps, if_neg (by simpa using hplain)]
          exact ⟨_, rfl⟩
      obtain ⟨url, hurl⟩ := hurl
      let wire : WireRequest :=
        { method := sent.method, url, query := sent.query, headers := sent.headers, body := .bytes sent.body }
      have hsend : Runs (overReqwest client (.requestBlob sent))
          [Event.onWire ⟨.send (client.stamped wire), .ok resp.onWire⟩] (.done (.ok resp)) := by
        show Runs (onWire (client.requestBlob sent)) _ _
        unfold ReqwestHttpClient.requestBlob
        rw [hurl]
        exact sends_once hmax h200 wire
      have hstack := stacked_once (K := K) SessionAwareHttpClient.innerBlob
        (fun auth req => { req with headers := auth ++ req.headers }) req
        (e := ⟨.requestBlob sent, .ok resp⟩) (by omega) (.call (.ret _)) hsend
      exact ⟨_, hstack, nofun⟩
  | _ => exact ⟨_, .call (.ret _), nofun⟩

/-- a run of the core in which every request is answered so is one over the clients -/
theorem runs_deployed {α : Type} (hmax : client.maxAttempts ≠ 0) {p : Sdk α} {tr : Trace host}
    {o : Outcome (Except Fault α)} (h : Runs p.run tr o) (hprompt : ∀ e ∈ tr, Prompt e = true) :
    ∃ low, Runs (deployed K client p) low o ∧ (commits tr ≠ [] → puts low ≠ []) := by
  have hlow : ∃ low, Layered (overClients K client) tr low ∧ (commits tr ≠ [] → puts low ≠ []) := by
    clear h
    induction tr with
    | nil => exact ⟨[], .nil, fun h => absurd rfl h⟩
    | cons e tr ih =>
      obtain ⟨low, hl, hputs⟩ := ih fun e' he' => hprompt e' (List.mem_cons_of_mem _ he')
      obtain ⟨t, ht, hput⟩ := overClients_prompt hmax e (hprompt e List.mem_cons_self)
      refine ⟨t ++ low, .cons ht hl, fun hcommits hnil => ?_⟩
      have hparts : puts t ++ puts low = [] := by
        rw [← hnil]
        exact List.filterMap_append.symm
      obtain ⟨ht0, hlow0⟩ := List.append_eq_nil_iff.mp hparts
      by_cases hcommit : isCommit e.call = true
      · exact hput hcommit ht0
      · refine hputs (fun hrest => hcommits ?_) hlow0
        unfold commits at hrest ⊢
        rw [List.filter_cons, if_neg hcommit, hrest]
  obtain ⟨low, hl, hputs⟩ := hlow
  exact ⟨low, hl.runs h, hputs⟩

end

/-- the upload of "A", every request of which is answered at once -/
def promptRun : Trace host × Option (Except Fault Unit) :=
  (smallUpload [goodLink]).play (runUpload goodCrates smallUploader 1)

theorem promptRun_deployed :
    ∃ low, Runs (deployed goodCrates defaultClient (runUpload goodCrates smallUploader 1)) low
        (.done (.ok ())) ∧ puts low ≠ [] ∧
      (puts low).length ≤ 10 ∧ (puts low).Pairwise Resent ∧
      ∀ pre e post x, low = pre ++ e :: post → putSend e = some x →
        ∃ tr req, SentAt goodCrates defaultClient smallUploader pre x tr req := by
  have hends : (isOk promptRun.2 && promptRun.1.all Prompt) = true := by decide +kernel
  obtain ⟨hok, hprompt⟩ := Bool.and_eq_true_iff.mp hends
  have hrun := Script.play_runs (R := promptRun) rfl (isOk_spec hok)
  have hmax : defaultClient.maxAttempts ≠ 0 := by decide
  obtain ⟨low, hlow, hputs⟩ := runs_deployed (K := goodCrates) hmax hrun (List.all_eq_true.mp hprompt)
  exact ⟨low, hlow, hputs (commits_of_ok hrun), commit_on_wire hlow⟩

end ProtonDrive
