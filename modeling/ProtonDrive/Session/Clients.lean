import ProtonDrive.App.Http
import ProtonDrive.Session.Steps

/-!
# The turns of a caller

* `requestOf`            the headers and the answer of a request;
* `ClientPhase`, `ClientTurn`
                         where a caller of the session-aware client, or the loop of the session, is between
                         two calls, and how a call moves it on;
* `client_makes`, `clientLoop_makes`
                         every run of a caller, and every run of the loop, makes these turns.
-/

set_option linter.unusedVariables false

namespace ProtonDrive
open Encoding Effects Api Paths

/-- the headers and the answer of a request -/
def requestOf : Event sessionHost →
    Option (List (String × String) × Except Error JsonResponse)
  | ⟨.requestJson req, a⟩ => some (req.headers, a)
  | ⟨.requestBlob req, a⟩ => some (req.headers, a)
  | _ => none

/-- what a caller is handed: a response or an error -/
abbrev Handed := Except Error JsonResponse

/-- a caller takes a snapshot of the state, sends with it, and if its token was `rejected` refreshes the
session and does both again.  `busy` and `settled` hold the lock; the loop, which holds it too, has no
token rejected -/
inductive ClientPhase where
  | idle
  | sending (st : SessionState)
  | rejected (st : SessionState)
  | busy (rejected : Option SessionState) (p : RefreshPhase)
  | settled (rejected : Option SessionState)
  | retrying (rejected : SessionState)
  | resending (rejected st : SessionState)
  | failed (rejected : SessionState)
  | finished (rejected : Option SessionState) (handed : Handed)

inductive ClientKind where
  | loop
  | caller

/-- the loop does so only while it refreshes -/
def refreshesOnly : SessionCall → Bool
  | .acquire => true
  | .replace _ => true
  | .release => true
  | .requestJson _ => true
  | .requestBlob _ => true
  | _ => false

/-- a request with the auth headers of `st` -/
def Carries (st : SessionState) (headers : List (String × String)) : Prop :=
  ∃ own, headers = st.authHeaders ++ own

inductive ClientTurn (K : Crates) : ClientKind → ClientPhase → Event sessionHost → ClientPhase → Prop
  | rests {e} (h : refreshesOnly e.call = false) : ClientTurn K .loop .idle e .idle
  | begins (st : SessionState) : ClientTurn K .loop .idle ⟨.acquire, st⟩ (.busy none (.holding st))
  | snapshots (st) : ClientTurn K .caller .idle ⟨.readState, st⟩ (.sending st)
  | refused {st e headers resp} (he : requestOf e = some (headers, .ok resp)) (hst : Carries st headers)
      (h : resp.status = 401) : ClientTurn K .caller (.sending st) e (.rejected st)
  | served {st e headers handed} (he : requestOf e = some (headers, handed)) (hst : Carries st headers)
      (h : ∀ resp, handed = .ok resp → resp.status ≠ 401) :
      ClientTurn K .caller (.sending st) e (.finished none handed)
  | acquires (r) (st : SessionState) : ClientTurn K .caller (.rejected r) ⟨.acquire, st⟩
      (.busy (some r) (.holding st))
  | refreshes {kind r p e q} (h : RefreshTurn K p e q) : ClientTurn K kind (.busy r p) e (.busy r q)
  | replaces (kind r st) : ClientTurn K kind (.busy r (.ready st)) ⟨.replace st, ()⟩ (.settled r)
  | ends : ClientTurn K .loop (.settled none) ⟨.release, ()⟩ .idle
  | breaks (e) : ClientTurn K .loop (.busy none (.ended e)) ⟨.release, ()⟩ .idle
  | releases (r) : ClientTurn K .caller (.settled (some r)) ⟨.release, ()⟩ (.retrying r)
  | fails (r e) : ClientTurn K .caller (.busy (some r) (.ended e)) ⟨.release, ()⟩ (.failed r)
  | resnapshots (r st) : ClientTurn K .caller (.retrying r) ⟨.readState, st⟩ (.resending r st)
  | reserved {r st e headers handed} (he : requestOf e = some (headers, handed)) (hst : Carries st headers) :
      ClientTurn K .caller (.resending r st) e (.finished (some r) handed)

section
variable {K : Crates} {tr : Trace sessionHost} {st : SessionState}

/-! ## a refresh -/

/-- a program makes the turns of this phase, and if it returns it has come to a phase that fits -/
def Makes {ε α : Type} (K : Crates) (kind : ClientKind) (phase : ClientPhase)
    (p : ExceptT ε (Prog sessionHost) α) (Fits : Except ε α → ClientPhase → Prop) : Prop :=
  ∀ tr o, Runs p.run tr o → ∃ q, Path (ClientTurn K kind) phase tr q ∧ ∀ r, o = .done r → Fits r q

section
variable {ε α β : Type} {kind : ClientKind} {phase : ClientPhase}
  {Fits : Except ε α → ClientPhase → Prop}

theorem makes_pure {a : Except ε α} (h : Fits a phase) :
    Makes K kind phase (ExceptT.mk (pure a) : ExceptT ε (Prog sessionHost) α) Fits := follows_pure h

theorem makes_call {c : SessionCall} {f : c.Ans → ExceptT ε (Prog sessionHost) α}
    {next : c.Ans → ClientPhase} (hturn : ∀ a, ClientTurn K kind phase ⟨c, a⟩ (next a))
    (hf : ∀ a, Makes K kind (next a) (f a) Fits) :
    Makes K kind phase (ExceptT.mk (.call c fun a => (f a).run)) Fits := follows_call hturn hf

end

/-- a refresh, the release of the lock, and what comes after it -/
theorem makes_refresh {α : Type} {kind : ClientKind} {r : Option SessionState} {kept broken : ClientPhase}
    {f : Except SessionManagerError SessionState → Session α}
    {Fits : Except SessionManagerError α → ClientPhase → Prop}
    (hkept : ClientTurn K kind (.settled r) ⟨.release, ()⟩ kept)
    (hbroken : ∀ e, ClientTurn K kind (.busy r (.ended e)) ⟨.release, ()⟩ broken)
    (hok : ∀ st, Makes K kind kept (f (.ok st)) Fits)
    (herror : ∀ e, Makes K kind broken (f (.error e)) Fits) :
    Makes K kind (.busy r (.holding st))
      (caught (doRefresh K st) >>= fun res => settle res >>= fun _ => f res) Fits :=
  @follows_locked K st ClientPhase α _ (.busy r) _ _ _ f Fits (fun _ _ _ hturn => .refreshes hturn)
    (fun st => .replaces kind r st) hkept hbroken hok herror

theorem forceRefresh_makes (r : SessionState) :
    Makes K .caller (.rejected r) (forceRefresh K) fun res q =>
      q = match res with
        | .ok _ => .retrying r
        | .error _ => .failed r := by
  have hbody : ∀ st : SessionState, Makes K .caller (.busy (some r) (.holding st))
      (caught (doRefresh K st) >>= fun res => settle res >>= fun _ =>
        orFail id (res.map fun _ => ())) fun res q =>
      q = match res with
        | .ok _ => .retrying r
        | .error _ => .failed r :=
    fun st => makes_refresh (.releases r) (.fails r) (fun _ => makes_pure rfl) fun _ => makes_pure rfl
  exact makes_call (.acquires r) hbody

/-! ## the loop -/

theorem makes_rests {c : SessionCall} {f : c.Ans → Session Unit} (hc : refreshesOnly c = false)
    (hf : ∀ a, Makes K .loop .idle (f a) fun _ _ => True) :
    Makes K .loop .idle (ask c >>= f) fun _ _ => True :=
  makes_call (fun _ => .rests hc) hf

theorem makes_sleep {nanos : Nat} {p : Session Unit} (hp : Makes K .loop .idle p fun _ _ => True) :
    Makes K .loop .idle (sleep nanos >>= fun _ => p) fun _ _ => True := by
  change Makes K .loop .idle (ask .now >>= fun now : Nat =>
    ask (.sleepUntil (now + nanos)) >>= fun _ => p) _
  exact makes_rests rfl fun _ => makes_rests rfl fun _ => hp

theorem clientLoop_makes (fuel : Nat) :
    Makes K .loop .idle (proactiveRefreshLoop K fuel) fun _ _ => True := by
  induction fuel with
  | zero => exact follows_cut
  | succ fuel ih =>
    refine makes_rests rfl fun seen => makes_rests rfl fun now => makes_sleep ?_
    refine makes_call .begins fun st => ?_
    exact makes_refresh .ends .breaks (fun _ => ih) fun e =>
      match e with
      | .sessionExpired => makes_pure trivial
      | .keyring _ => makes_sleep ih
      | .io _ => makes_sleep ih
      | .json _ => makes_sleep ih
      | .http _ => makes_sleep ih
      | .noKeyring _ => makes_sleep ih

/-! ## a caller -/

/-- what a caller was handed, and the phase it has come to -/
def HandedAt (handed : Handed) (q : ClientPhase) : Prop :=
  (∃ r, q = .finished r handed) ∨ ((∃ r, q = .failed r) ∧ ∃ e, handed = .error e)

/-- `inner` makes one request, with headers put before its own -/
def Sends {Req : Type} (inner : Req → SessionAware JsonResponse)
    (authed : List (String × String) → Req → Req) (req : Req) : Prop :=
  ∀ auth tr o, Runs (inner (authed auth req)).run tr o → (tr = [] ∧ o = .running) ∨
    ∃ e own a, tr = [e] ∧ requestOf e = some (auth ++ own, a) ∧ (o = .done a ∨ o = .running)

section
variable {Req : Type} {inner : Req → SessionAware JsonResponse}
  {authed : List (String × String) → Req → Req} {req : Req}

theorem makes_resend (hsends : Sends inner authed req) (r st : SessionState) :
    Makes K .caller (.resending r st) (inner (authed st.authHeaders req)) HandedAt := by
  intro tr o h
  rcases hsends _ _ _ h with ⟨rfl, rfl⟩ | ⟨e, own, a, rfl, he, ho⟩
  · exact ⟨_, .nil _, nofun⟩
  · refine ⟨_, .one (.reserved he ⟨own, rfl⟩), ?_⟩
    rintro handed rfl
    rcases ho with ho | ho
    · cases ho
      exact .inl ⟨_, rfl⟩
    · cases ho

/-- what a caller does after it was refused -/
theorem makes_retry (hsends : Sends inner authed req) (r : SessionState) :
    Makes K .caller (.rejected r) (ExceptT.lift (forceRefresh K).run >>= fun refreshed =>
      match refreshed with
      | .ok _ => SessionAwareHttpClient.authHeaders >>= fun auth => inner (authed auth req)
      | .error .sessionExpired => throw (.internal "session expired -- please log in again")
      | .error e => throw (.internal ("refresh failed: " ++ e.display))) HandedAt := by
  refine Follows.caught (forceRefresh_makes r) ?_
  rintro res _ rfl
  cases res with
  | ok _ => exact makes_call (.resnapshots r) fun st => makes_resend hsends r st
  | error e => cases e <;> exact makes_pure (.inr ⟨⟨r, rfl⟩, _, rfl⟩)

theorem makes_send (hsends : Sends inner authed req) :
    Makes K .caller .idle (SessionAwareHttpClient.send K inner authed req) HandedAt := by
  refine makes_call .snapshots fun st => ?_
  intro tr o h
  rcases h.bindE_inv with ⟨resp, t, u, rfl, h₁, k⟩ | ⟨o₁, ho, h₁⟩
  · rcases hsends _ _ _ h₁ with ⟨_, hrun⟩ | ⟨e, own, a, rfl, he, hdone⟩
    · cases hrun
    · obtain rfl : a = .ok resp := by
        rcases hdone with hdone | hdone <;> cases hdone
        rfl
      by_cases hstatus : resp.status ≠ 401
      · rw [if_pos hstatus] at k
        obtain ⟨rfl, hret⟩ := Runs.ret_inv k
        refine ⟨_, .one (.served he ⟨own, rfl⟩ ?_), ?_⟩
        · intro resp' hresp
          cases hresp
          exact hstatus
        · rintro handed rfl
          rcases hret with hret | hret <;> cases hret
          exact .inl ⟨_, rfl⟩
      · rw [if_neg hstatus] at k
        obtain ⟨q, hpath, hfits⟩ := makes_retry hsends st u o k
        exact ⟨q, .cons (.refused he ⟨own, rfl⟩ (not_not.mp hstatus)) hpath, hfits⟩
  · rcases hsends _ _ _ h₁ with ⟨rfl, rfl⟩ | ⟨e, own, a, rfl, he, hdone⟩
    · rw [ho.of_running]
      exact ⟨_, .nil _, nofun⟩
    · by_cases hrefused : ∃ resp, a = .ok resp ∧ resp.status = 401
      · obtain ⟨resp, rfl, hstatus⟩ := hrefused
        refine ⟨_, .one (.refused he ⟨own, rfl⟩ hstatus), ?_⟩
        rintro handed rfl
        rcases hdone with rfl | rfl
        · exact absurd ho Outcome.Aborts.src_not_ok
        · cases ho.of_running
      · refine ⟨_, .one (.served he ⟨own, rfl⟩ fun resp ha h401 => hrefused ⟨resp, ha, h401⟩), ?_⟩
        rintro handed rfl
        rcases hdone with rfl | rfl
        · cases a with
          | ok resp => exact absurd ho Outcome.Aborts.src_not_ok
          | error err =>
            cases ho.of_error
            exact .inl ⟨_, rfl⟩
        · cases ho.of_running

end

/-- a request that a caller makes of the client -/
inductive Request where
  | json (req : JsonRequest)
  | blob (req : BlobRequest)

/-- one of the two functions of the client -/
def Request.send (K : Crates) : Request → SessionAware JsonResponse
  | .json req => SessionAwareHttpClient.requestJson K req
  | .blob req => SessionAwareHttpClient.requestBlob K req

theorem client_makes (request : Request) :
    Makes K .caller .idle (request.send K) HandedAt := by
  cases request with
  | json req =>
    refine @makes_send K _ SessionAwareHttpClient.innerJson
      (fun auth req => { req with headers := auth ++ req.headers }) req fun auth tr o h => ?_
    rcases Runs.call_inv h with ⟨rfl, rfl⟩ | ⟨a, t, rfl, k⟩
    · exact .inl ⟨rfl, rfl⟩
    · obtain ⟨rfl, ho⟩ := Runs.ret_inv k
      exact .inr ⟨_, req.headers, a, rfl, rfl, ho⟩
  | blob req =>
    refine @makes_send K _ SessionAwareHttpClient.innerBlob
      (fun auth req => { req with headers := auth ++ req.headers }) req fun auth tr o h => ?_
    rcases Runs.call_inv h with ⟨rfl, rfl⟩ | ⟨a, t, rfl, k⟩
    · exact .inl ⟨rfl, rfl⟩
    · obtain ⟨rfl, ho⟩ := Runs.ret_inv k
      exact .inr ⟨_, req.headers, a, rfl, rfl, ho⟩

end

end ProtonDrive
