import ProtonDrive.Lib.Follows
import ProtonDrive.App.Session

/-!
# The steps of a session

* `ask_ok`, `orFail_ok`, `readText_ok`, `caught_inv`
                         single steps;
* `RefreshPhase`, `RefreshTurn`
                         where a refresh is between two calls, and how a call moves it on;
* `saves_follows`, `doRefresh_path`
                         every run of a refresh makes these turns, and so does what saves its tokens;
* `follows_locked`       a refresh under the lock.
-/

set_option linter.unusedVariables false

namespace ProtonDrive
open Encoding Effects Api Paths

section
variable {α β : Type} {tr : Trace sessionHost}

/-! ## single steps -/

theorem done_inv {a b : α}
    (h : Runs (pure a : Session α).run tr (.done (.ok b))) : tr = [] ∧ b = a := by
  obtain ⟨rfl, h | h⟩ := Runs.ret_inv h
  · cases h
    exact ⟨rfl, rfl⟩
  · cases h

theorem ask_ok {c : SessionCall} {a : c.Ans} (h : Runs (ask c).run tr (.done (.ok a))) :
    tr = [⟨c, a⟩] := by
  rcases Runs.call_inv h with ⟨_, h⟩ | ⟨b, t, rfl, k⟩
  · cases h
  · obtain ⟨rfl, k | k⟩ := Runs.ret_inv k
    · cases k
      rfl
    · cases k

theorem orFail_ok {ε : Type} {f : ε → SessionManagerError} {r : Except ε α} {a : α}
    (h : Runs (orFail f r).run tr (.done (.ok a))) : tr = [] ∧ r = .ok a := by
  cases r with
  | ok b =>
    obtain ⟨rfl, rfl⟩ := done_inv h
    exact ⟨rfl, rfl⟩
  | error e => obtain ⟨_, h | h⟩ := Runs.ret_inv h <;> cases h

theorem readText_ok {type : String} {dec : Json → Option α} {text : Text} {a : α}
    (h : Runs (readText type dec text).run tr (.done (.ok a))) : tr = [] ∧ text.bind dec = some a := by
  unfold readText at h
  cases htext : text.bind dec with
  | some b =>
    rw [htext] at h
    obtain ⟨rfl, rfl⟩ := done_inv h
    exact ⟨rfl, rfl⟩
  | none =>
    rw [htext] at h
    obtain ⟨_, h | h⟩ := Runs.ret_inv h <;> cases h

/-- a part whose failure is a value -/
theorem caught_bind {p : Session α} {f : Except SessionManagerError α → Session β} :
    (caught p >>= f).run = p.run >>= fun r => (f r).run := ExceptT.run_bind_lift _ _

theorem caught_inv {p : Session α} {f : Except SessionManagerError α → Session β}
    {o : Outcome (Except SessionManagerError β)} (h : Runs (caught p >>= f).run tr o) :
    (∃ r t u, tr = t ++ u ∧ Runs p.run t (.done r) ∧ Runs (f r).run u o) ∨
      ∃ o₁, Outcome.Unfinished o₁ o ∧ Runs p.run tr o₁ := by
  rw [caught_bind] at h
  exact h.bind_inv

theorem caught_runs {p : Session α} {f : Except SessionManagerError α → Session β}
    {r : Except SessionManagerError α} {o : Outcome (Except SessionManagerError β)}
    {t u : Trace sessionHost} (hp : Runs p.run t (.done r)) (hf : Runs (f r).run u o) :
    Runs (caught p >>= f).run (t ++ u) o := by
  rw [caught_bind]
  exact Runs.bind hp hf

theorem caught_running {p : Session α} {f : Except SessionManagerError α → Session β}
    (h : Runs p.run tr .running) : Runs (caught p >>= f).run tr .running := by
  rw [caught_bind]
  exact Runs.bind_running h

end

/-! ## what is written -/

/-- the document a session keeps in its two secret stores -/
def secretDoc (uid refreshToken keyPassword : String) : Json :=
  KeyringPayload.toJson { uid, refreshToken, keyPassword }

/-- the document it keeps in `session.json` -/
def sessionDoc (uid accessToken : String) (nowUnix now expiresAt : Nat) : Json :=
  SessionFile.toJson
    { uid, accessToken, expiresAtUnix := expiresAtUnix nowUnix now expiresAt,
      appVersion := defaultAppVersion, baseUrl := defaultBaseUrl }

/-! ## a refresh -/

inductive RefreshPhase where
  | holding (st : SessionState)
  | rejected (st : SessionState)
  | answered (st : SessionState) (tok : Auth.RefreshResponse)
  | timed (st : SessionState) (tok : Auth.RefreshResponse) (expiresAt : Nat)
  | keyed (st : SessionState) (tok : Auth.RefreshResponse) (expiresAt : Nat)
  | secured (st : SessionState) (tok : Auth.RefreshResponse) (expiresAt : Nat)
  | clocked (st : SessionState) (tok : Auth.RefreshResponse) (expiresAt nowUnix : Nat)
  | dated (st : SessionState) (tok : Auth.RefreshResponse) (expiresAt nowUnix now : Nat)
  | ready (st : SessionState)
  | ended (e : SessionManagerError)

/-- the server rejects the refresh token -/
def Rejects (resp : JsonResponse) : Prop := resp.status = 401 ∨ resp.status = 422

/-- the server answers a refresh with new tokens -/
def Rotates (K : Crates) (resp : JsonResponse) (tok : Auth.RefreshResponse) : Prop :=
  ¬ Rejects resp ∧ refreshAnswer K resp = .ok tok

inductive RefreshTurn (K : Crates) : RefreshPhase → Event sessionHost → RefreshPhase → Prop
  | unanswered (st e) : RefreshTurn K (.holding st)
      ⟨.requestJson (refreshRequest st), .error e⟩ (.ended (.http e))
  | rejects (st) {resp} (h : Rejects resp) : RefreshTurn K (.holding st)
      ⟨.requestJson (refreshRequest st), .ok resp⟩ (.rejected st)
  | unread (st) {resp e} (hstatus : ¬ Rejects resp) (h : refreshAnswer K resp = .error e) :
      RefreshTurn K (.holding st) ⟨.requestJson (refreshRequest st), .ok resp⟩ (.ended e)
  | answers (st) {resp tok} (h : Rotates K resp tok) : RefreshTurn K (.holding st)
      ⟨.requestJson (refreshRequest st), .ok resp⟩ (.answered st tok)
  | clears (st a) : RefreshTurn K (.rejected st) ⟨.deleteKeyring st.uid, a⟩ (.ended .sessionExpired)
  | times (st tok) (now : Nat) : RefreshTurn K (.answered st tok) ⟨.now, now⟩
      (.timed st tok (now + TOKEN_LIFE))
  | keys (st tok x a) : RefreshTurn K (.timed st tok x)
      ⟨.setKeyring st.uid (secretDoc st.uid tok.refreshToken st.keyPassword), a⟩ (.keyed st tok x)
  | secures (st tok x) : RefreshTurn K (.keyed st tok x)
      ⟨.writeFile .secret (secretDoc st.uid tok.refreshToken st.keyPassword), .ok ()⟩
      (.secured st tok x)
  | unsecured (st tok x e) : RefreshTurn K (.keyed st tok x)
      ⟨.writeFile .secret (secretDoc st.uid tok.refreshToken st.keyPassword), .error e⟩
      (.ended (.io e))
  | clocks (st tok x) (nowUnix : Nat) : RefreshTurn K (.secured st tok x) ⟨.unixNow, nowUnix⟩
      (.clocked st tok x nowUnix)
  | dates (st tok x u) (now : Nat) : RefreshTurn K (.clocked st tok x u) ⟨.now, now⟩
      (.dated st tok x u now)
  | saves (st tok x u n) : RefreshTurn K (.dated st tok x u n)
      ⟨.writeFile .session (sessionDoc st.uid tok.accessToken u n x), .ok ()⟩
      (.ready (st.rotated tok x))
  | unsaved (st tok x u n e) : RefreshTurn K (.dated st tok x u n)
      ⟨.writeFile .session (sessionDoc st.uid tok.accessToken u n x), .error e⟩ (.ended (.io e))

/-- a refresh with the outcome `o` is in the phase `q` -/
structure EndsAt (o : Outcome (Except SessionManagerError SessionState)) (q : RefreshPhase) :
    Prop where
  ok : ∀ st, o = .done (.ok st) → q = .ready st
  error : ∀ e, o = .done (.error e) → q = .ended e

theorem follows_orFail {P ε α : Type} {T : P → Event sessionHost → P → Prop} {phase : P}
    {f : ε → SessionManagerError} {r : Except ε α} {Fits : Except SessionManagerError α → P → Prop}
    (h : Fits (r.mapError f) phase) : Follows T phase (orFail f r) Fits := by
  cases r with
  | ok a => exact follows_pure h
  | error e => exact follows_pure h

/-- where a refresh is after the write of a file -/
def afterWrite (next : RefreshPhase) : Except IoError Unit → RefreshPhase
  | .ok _ => next
  | .error e => .ended (.io e)

/-- where a refresh is that has returned -/
def RefreshEnds (r : Except SessionManagerError SessionState) (q : RefreshPhase) : Prop :=
  q = match r with
    | .ok st => .ready st
    | .error e => .ended e

section
variable {K : Crates} {tr : Trace sessionHost} {st : SessionState} {tok : Auth.RefreshResponse}
  {o : Outcome (Except SessionManagerError SessionState)} {q : RefreshPhase} {x : Nat}

theorem EndsAt.of (h : ∀ r, o = .done r → RefreshEnds r q) : EndsAt o q where
  ok st ho := h _ ho
  error e ho := h _ ho

theorem saveKeyring_follows : Follows (RefreshTurn K) (.timed st tok x)
    (saveKeyring st.uid tok.refreshToken st.keyPassword) fun _ q => q = .keyed st tok x :=
  follows_call (fun a => .keys st tok x a) fun _ => follows_orFail rfl

theorem saveSecretFile_follows : Follows (RefreshTurn K) (.keyed st tok x)
    (saveSecretFile st.uid tok.refreshToken st.keyPassword) fun r q => q = match r with
      | .ok _ => .secured st tok x
      | .error e => .ended e := by
  have hturn : ∀ a : Except IoError Unit, RefreshTurn K (.keyed st tok x)
      ⟨.writeFile .secret (secretDoc st.uid tok.refreshToken st.keyPassword), a⟩
      (afterWrite (.secured st tok x) a) := by
    intro a
    cases a with
    | ok _ => exact .secures st tok x
    | error e => exact .unsecured st tok x e
  refine follows_call hturn fun a : Except IoError Unit => follows_orFail ?_
  cases a <;> rfl

/-- the two clocks and the last write, after the secret file was written -/
theorem writeSessionFile_follows : Follows (RefreshTurn K) (.secured st tok x)
    (writeSessionFile st.uid tok.accessToken x) fun r q => q = match r with
      | .ok _ => .ready (st.rotated tok x)
      | .error e => .ended e := by
  refine follows_call (fun nowUnix => .clocks st tok x nowUnix) fun nowUnix => ?_
  refine follows_call (fun now => .dates st tok x nowUnix now) fun now => ?_
  have hturn : ∀ a : Except IoError Unit, RefreshTurn K (.dated st tok x nowUnix now)
      ⟨.writeFile .session (sessionDoc st.uid tok.accessToken nowUnix now x), a⟩
      (afterWrite (.ready (st.rotated tok x)) a) := by
    intro a
    cases a with
    | ok _ => exact .saves st tok x nowUnix now
    | error e => exact .unsaved st tok x nowUnix now e
  refine follows_call hturn fun a : Except IoError Unit => follows_orFail ?_
  cases a <;> rfl

/-- the three writes, of new tokens that last to `x` -/
theorem saves_follows : Follows (RefreshTurn K) (.timed st tok x)
    (caught (saveKeyring st.uid tok.refreshToken st.keyPassword) >>= fun _ =>
      saveSecretFile st.uid tok.refreshToken st.keyPassword >>= fun _ =>
      writeSessionFile st.uid tok.accessToken x >>= fun _ =>
      pure (st.rotated tok x) : Session SessionState) RefreshEnds := by
  refine saveKeyring_follows.caught ?_
  rintro _ _ rfl
  refine saveSecretFile_follows.bind ?_ fun e q hq => hq
  rintro _ _ rfl
  refine writeSessionFile_follows.bind ?_ fun e q hq => hq
  rintro _ _ rfl
  exact follows_pure rfl

theorem deleteKeyring_follows : Follows (RefreshTurn K) (.rejected st) (deleteKeyring st.uid)
    fun _ q => q = .ended .sessionExpired := by
  refine follows_call (fun a => .clears st a) fun a => ?_
  match a with
  | .ok _ => exact follows_pure rfl
  | .error .noEntry => exact follows_pure rfl
  | .error (.other msg) => exact follows_pure rfl

theorem doRefresh_follows : Follows (RefreshTurn K) (.holding st) (doRefresh K st) RefreshEnds := by
  intro tr o h
  rcases Runs.call_inv h with ⟨rfl, rfl⟩ | ⟨sent, t, rfl, k⟩
  · exact ⟨_, .nil _, nofun⟩
  · match sent, k with
    | .error e, k =>
      have hend : Follows (RefreshTurn K) (.ended (.http e))
        (ExceptT.mk (pure (.error (.http e))) : Session SessionState) RefreshEnds := follows_pure rfl
      obtain ⟨q, hpath, hends⟩ := hend t o k
      exact ⟨q, .cons (.unanswered _ _) hpath, hends⟩
    | .ok resp, k =>
      change Runs (ExceptT.run (if resp.status = 401 ∨ resp.status = 422 then
        caught (deleteKeyring st.uid) >>= fun _ => throw .sessionExpired
        else orFail id (refreshAnswer K resp) >>= fun tok => saveRotated st tok)) t o at k
      by_cases hrejects : resp.status = 401 ∨ resp.status = 422
      · rw [if_pos hrejects] at k
        have hclear : Follows (RefreshTurn K) (.rejected st)
            (caught (deleteKeyring st.uid) >>= fun _ => throw .sessionExpired : Session SessionState)
            RefreshEnds := by
          refine deleteKeyring_follows.caught ?_
          rintro _ _ rfl
          exact follows_pure rfl
        obtain ⟨q, hpath, hends⟩ := hclear t o k
        exact ⟨q, .cons (.rejects _ hrejects) hpath, hends⟩
      · rw [if_neg hrejects] at k
        cases hanswer : refreshAnswer K resp with
        | error e =>
          rw [hanswer] at k
          have hend : Follows (RefreshTurn K) (.ended e)
            (ExceptT.mk (pure (.error e)) : Session SessionState) RefreshEnds := follows_pure rfl
          obtain ⟨q, hpath, hends⟩ := hend t o k
          exact ⟨q, .cons (.unread _ hrejects hanswer) hpath, hends⟩
        | ok tok =>
          rw [hanswer] at k
          have hsaves : Follows (RefreshTurn K) (.answered st tok) (saveRotated st tok) RefreshEnds :=
            follows_call (fun now => .times st tok now) fun now => saves_follows
          obtain ⟨q, hpath, hends⟩ := hsaves t o k
          exact ⟨q, .cons (.answers _ ⟨hrejects, hanswer⟩) hpath, hends⟩

theorem doRefresh_path (h : Runs (doRefresh K st).run tr o) :
    ∃ q, Path (RefreshTurn K) (.holding st) tr q ∧ EndsAt o q := by
  obtain ⟨q, hpath, hends⟩ := doRefresh_follows tr o h
  exact ⟨q, hpath, .of hends⟩

/-! ## a refresh under the lock -/

/-- a refresh, the release of the lock, and what comes after it, in a relation that has the turns of a
refresh as those of its `busy` phases -/
theorem follows_locked {P α : Type} {T : P → Event sessionHost → P → Prop} {busy : RefreshPhase → P}
    {settled kept broken : P} {f : Except SessionManagerError SessionState → Session α}
    {Fits : Except SessionManagerError α → P → Prop}
    (hbusy : ∀ p e q, RefreshTurn K p e q → T (busy p) e (busy q))
    (hreplaces : ∀ st, T (busy (.ready st)) ⟨.replace st, ()⟩ settled)
    (hkept : T settled ⟨.release, ()⟩ kept) (hbroken : ∀ e, T (busy (.ended e)) ⟨.release, ()⟩ broken)
    (hok : ∀ st, Follows T kept (f (.ok st)) Fits) (herror : ∀ e, Follows T broken (f (.error e)) Fits) :
    Follows T (busy (.holding st))
      (caught (doRefresh K st) >>= fun res => settle res >>= fun _ => f res) Fits := by
  have hrefresh : Follows T (busy (.holding st)) (doRefresh K st) fun r q =>
      ∃ p, RefreshEnds r p ∧ q = busy p :=
    doRefresh_follows.map hbusy fun r q hq => ⟨q, hq, rfl⟩
  refine hrefresh.caught ?_
  rintro r _ ⟨_, rfl, rfl⟩
  cases r with
  | ok st' =>
    exact follows_call (fun _ => hreplaces st') fun _ => follows_call (fun _ => hkept) fun _ => hok st'
  | error e => exact follows_call (fun _ => hbroken e) fun _ => herror e

end

end ProtonDrive
