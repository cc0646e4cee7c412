import ProtonDrive.Session.Rejected

/-!
# The newest refresh token

The server rotates the refresh token with every refresh it answers.

* `Mark`, `marks`        the tokens that requests carried and that answers brought;
* `Course`               a session going through refreshes and restarts, each store write on its own
                         succeeding or failing;
* `Kept`                 a refresh that was answered has written both files, and the keyring unless it has no
                         payload of the uid;
* `newest_token_sent`    in a course whose refreshes are all `Kept` every request carries the newest token.

A refresh that fails to write a file leaves the old token in memory (`failedWrite_sendsOld`).
-/

set_option linter.unusedVariables false

namespace ProtonDrive
open Encoding Effects Api Paths

/-! ## what is sent and answered -/

inductive Mark where
  /-- a refresh request carried this token -/
  | asked (token : String)
  /-- an answer with this token was parsed -/
  | parsed (token : String)
  deriving DecidableEq

/-- the refresh token a request carries -/
def carriedToken (req : JsonRequest) : Option String :=
  req.body.bind (Json.required Json.asStr "RefreshToken")

/-- the refresh token that is parsed from a response -/
def parsedToken (K : Crates) (resp : JsonResponse) : List Mark :=
  if resp.status = 401 ∨ resp.status = 422 then []
  else
    match refreshAnswer K resp with
    | .ok tok => [.parsed tok.refreshToken]
    | .error _ => []

def marks (K : Crates) : Event sessionHost → List Mark
  | ⟨.requestJson req, ans⟩ =>
    match carriedToken req, ans with
    | some token, .ok resp => .asked token :: parsedToken K resp
    | some token, .error _ => [.asked token]
    | none, _ => []
  | _ => []

/-- the token of the last answer that was parsed -/
def newest (ms : List Mark) : Option String :=
  ms.foldl (fun last m =>
    match m with
    | .asked _ => last
    | .parsed token => some token) none

/-! ## courses -/

/-- the state a refresh leaves in memory; the process has died in one that is not over -/
def SessionState.after (st : SessionState) :
    Outcome (Except SessionManagerError SessionState) → Option SessionState
  | .done (.ok st') => some st'
  | .done (.error _) => some st
  | _ => none

/-- the stores over a restart: a keyring that is kept in memory only has lost its entries -/
def Survives (s s' : Stores) : Prop :=
  s'.file = s.file ∧ (s'.keyring = s.keyring ∨ ∀ uid, s'.keyring uid = none)

/-- the stores, the state in memory if there is a process, and the marks so far; `C` is asked of each
refresh: of the stores before it, the state, and its calls -/
inductive Course (K : Crates) (C : Stores → SessionState → Trace sessionHost → Prop) :
    Stores → Option SessionState → List Mark → Prop
  | start (s st) : Course K C s (some st) []
  | refresh {s st ms tr o s'} (h : Course K C s (some st) ms)
      (hrun : Runs (doRefresh K st).run tr o) (hs : Path Serves s tr s') (hC : C s st tr) :
      Course K C s' (st.after o) (ms ++ tr.flatMap (marks K))
  | restart {s m ms s₁ tr st s'} (h : Course K C s m ms) (hkept : Survives s s₁)
      (hrun : Runs fromKeyring.run tr (.done (.ok st))) (hs : Path Serves s₁ tr s') :
      Course K C s' (some st) ms

/-- the event is a write of this file that succeeded -/
def writes (path : StorePath) : Event sessionHost → Bool
  | ⟨.writeFile p _, .ok _⟩ => p = path
  | _ => false

/-- the event is a write to the keyring that succeeded -/
def writesKeyring : Event sessionHost → Bool
  | ⟨.setKeyring _ _, .ok _⟩ => true
  | _ => false

/-- the payload of `uid` in the keyring -/
def Stores.entryOf (s : Stores) (uid : String) : Option KeyringPayload :=
  (s.keyring uid).bind fun text => text.bind KeyringPayload.ofJson

/-- a refresh whose answer was parsed has written both files, and the keyring unless it has no payload of
the uid -/
def Kept (K : Crates) (s : Stores) (st : SessionState) (tr : Trace sessionHost) : Prop :=
  ∀ token, .parsed token ∈ tr.flatMap (marks K) →
    tr.any (writes .secret) = true ∧ tr.any (writes .session) = true ∧
      (tr.any writesKeyring = true ∨ s.entryOf st.uid = none)

section
variable {K : Crates} {C : Stores → SessionState → Trace sessionHost → Prop}
  {tr t : Trace sessionHost} {s s' : Stores} {st : SessionState} {q : RefreshPhase}
  {tok : Auth.RefreshResponse} {ms ms' : List Mark} {token : String} {uid : String}

@[simp] theorem newest_asked : newest (ms ++ [.asked token]) = newest ms := by
  unfold newest
  rw [List.foldl_append]
  rfl

@[simp] theorem newest_parsed : newest (ms ++ [.parsed token]) = some token := by
  unfold newest
  rw [List.foldl_append]
  rfl

theorem parsedToken_rotates {resp : JsonResponse} (h : Rotates K resp tok) :
    parsedToken K resp = [.parsed tok.refreshToken] := by
  unfold parsedToken
  have hstatus : ¬ (resp.status = 401 ∨ resp.status = 422) := h.1
  rw [if_neg hstatus, h.2]

theorem marks_answered {resp : JsonResponse} (h : Rotates K resp tok) :
    marks K (answeredWith st resp) = [.asked st.refreshToken, .parsed tok.refreshToken] := by
  show .asked st.refreshToken :: parsedToken K resp = _
  rw [parsedToken_rotates h]

theorem parsedToken_rejects {resp : JsonResponse} (h : Rejects resp) : parsedToken K resp = [] :=
  if_pos h

theorem parsedToken_unread {resp : JsonResponse} {e : SessionManagerError} (hstatus : ¬ Rejects resp)
    (h : refreshAnswer K resp = .error e) : parsedToken K resp = [] := by
  unfold parsedToken
  have hstatus : ¬ (resp.status = 401 ∨ resp.status = 422) := hstatus
  rw [if_neg hstatus, h]

/-- the calls of a refresh that has written everything -/
def savedCalls (st : SessionState) (tok : Auth.RefreshResponse) (now : Nat)
    (a : Except KeyringError Unit) (nowUnix now' : Nat) : Trace sessionHost :=
  [⟨.now, now⟩, ⟨.setKeyring st.uid (secretDoc st.uid tok.refreshToken st.keyPassword), a⟩,
    ⟨.writeFile .secret (secretDoc st.uid tok.refreshToken st.keyPassword), .ok ()⟩,
    ⟨.unixNow, nowUnix⟩, ⟨.now, now'⟩,
    ⟨.writeFile .session (sessionDoc st.uid tok.accessToken nowUnix now' (now + TOKEN_LIFE)), .ok ()⟩]

theorem saved_path (h : Path (RefreshTurn K) (.answered st tok) tr q)
    (hsession : tr.any (writes .session) = true) :
    ∃ now a nowUnix now', tr = savedCalls st tok now a nowUnix now' ∧
      q = .ready (st.rotated tok (now + TOKEN_LIFE)) := by
  cases h with
  | nil => cases hsession
  | cons h₁ h =>
    cases h₁ with
    | times _ _ now =>
      cases h with
      | nil => cases hsession
      | cons h₂ h =>
        cases h₂ with
        | keys _ _ _ a =>
          cases h with
          | nil => cases hsession
          | cons h₃ h =>
            cases h₃ with
            | unsecured =>
              cases h with
              | nil => cases hsession
              | cons h => cases h
            | secures =>
              cases h with
              | nil => cases hsession
              | cons h₄ h =>
                cases h₄ with
                | clocks _ _ _ nowUnix =>
                  cases h with
                  | nil => cases hsession
                  | cons h₅ h =>
                    cases h₅ with
                    | dates _ _ _ _ now' =>
                      cases h with
                      | nil => cases hsession
                      | cons h₆ h =>
                        cases h₆ with
                        | unsaved =>
                          cases h with
                          | nil => cases hsession
                          | cons h => cases h
                        | saves =>
                          cases h with
                          | nil => exact ⟨now, a, nowUnix, now', rfl, rfl⟩
                          | cons h => cases h

/-! ## the stores of a course -/

theorem Serves.writeFile_inv {path : StorePath} {doc : Json}
    (h : Serves s ⟨.writeFile path doc, .ok ()⟩ s') : s' = s.setFile path (some (some doc)) := by
  cases h with
  | writeFile => rfl
  | other h => cases h

theorem Serves.setKeyring_inv {doc : Json} {a : Except KeyringError Unit}
    (h : Serves s ⟨.setKeyring uid doc, a⟩ s') :
    (a = .ok () ∧ s' = s.setEntry uid (some (some doc))) ∨ ((∃ e, a = .error e) ∧ s' = s) := by
  cases h with
  | setKeyring => exact .inl ⟨rfl, rfl⟩
  | setKeyringFailed => exact .inr ⟨⟨_, rfl⟩, rfl⟩
  | other h => cases h

/-- whatever is resumed from these stores is a session of `uid` with the refresh token `token` -/
structure Fresh (s : Stores) (uid token : String) : Prop where
  session : ∀ sf, s.readFile .session SessionFile.ofJson = some sf → sf.uid = uid
  entry : ∀ text kp, s.keyring uid = some text → text.bind KeyringPayload.ofJson = some kp →
    kp.refreshToken = token
  secret : ∀ kp, s.readFile .secret KeyringPayload.ofJson = some kp → kp.refreshToken = token

theorem Fresh.resumed {sf : SessionFile} {kp : KeyringPayload} (h : Fresh s uid token)
    (hresumes : s.resumes = some (sf, kp)) : sf.uid = uid ∧ kp.refreshToken = token := by
  obtain ⟨hsession, hsecret⟩ := Stores.resumes_eq_some.mp hresumes
  have huid := h.session sf hsession
  refine ⟨huid, ?_⟩
  rw [huid] at hsecret
  unfold Stores.secretOf at hsecret
  cases hentry : s.keyring uid with
  | some text =>
    rw [hentry] at hsecret
    exact h.entry text kp hentry hsecret
  | none =>
    rw [hentry] at hsecret
    exact h.secret kp (Option.filter_eq_some_iff.mp hsecret).1

theorem Fresh.of_file (h : Fresh s uid token) (hfile : s'.file = s.file)
    (hentry : s'.keyring uid = s.keyring uid ∨ s'.keyring uid = none) : Fresh s' uid token where
  session sf hsf := h.session sf (by unfold Stores.readFile at *; rwa [hfile] at hsf)
  entry text kp htext := by
    rcases hentry with hsame | hnone
    · rw [hsame] at htext
      exact h.entry text kp htext
    · rw [hnone] at htext
      cases htext
  secret kp hkp := h.secret kp (by unfold Stores.readFile at *; rwa [hfile] at hkp)

theorem Fresh.survives (h : Fresh s uid token) (hs : Survives s s') : Fresh s' uid token :=
  h.of_file hs.1 (hs.2.imp (fun hsame => by rw [hsame]) fun hnone => hnone uid)

theorem Fresh.deleted (h : Fresh s uid token) (uid' : String) :
    Fresh (s.setEntry uid' none) uid token := by
  refine h.of_file rfl ?_
  by_cases huid : uid = uid'
  · subst huid
    exact .inr (Stores.setEntry_keyring _ _ _)
  · exact .inl (Stores.setEntry_other _ _ _ _ huid)

/-- a refresh that has written everything it had to -/
theorem fresh_saved {now nowUnix now' : Nat} {a : Except KeyringError Unit}
    (hs : Path Serves s (savedCalls st tok now a nowUnix now') s')
    (hkeyring : a = .ok () ∨ s.entryOf st.uid = none) : Fresh s' st.uid tok.refreshToken := by
  cases hs with
  | cons h₁ hs =>
    obtain rfl := h₁.other_inv rfl
    cases hs with
    | cons h₂ hs =>
      cases hs with
      | cons h₃ hs =>
        obtain rfl := h₃.writeFile_inv
        cases hs with
        | cons h₄ hs =>
          obtain rfl := h₄.other_inv rfl
          cases hs with
          | cons h₅ hs =>
            obtain rfl := h₅.other_inv rfl
            obtain rfl := hs.one_inv.writeFile_inv
            constructor
            · intro sf hsf
              rw [Stores.readFile_setFile, sessionDoc_read] at hsf
              exact congrArg SessionFile.uid (Option.some.inj hsf).symm
            · intro text kp htext hkp
              rcases h₂.setKeyring_inv with ⟨_, rfl⟩ | ⟨⟨e, rfl⟩, rfl⟩
              · have htext : (Stores.setEntry _ st.uid _).keyring st.uid = some text := htext
                rw [Stores.setEntry_keyring] at htext
                rw [← Option.some.inj htext, Option.bind_some, secretDoc_read] at hkp
                exact congrArg KeyringPayload.refreshToken (Option.some.inj hkp).symm
              · rcases hkeyring with ha | hnone
                · cases ha
                · have hnone : (some text).bind (fun text => text.bind KeyringPayload.ofJson) = none := by
                    rw [← htext]
                    exact hnone
                  rw [Option.bind_some, hkp] at hnone
                  cases hnone
            · intro kp hkp
              rw [Stores.readFile_setFile_other (by decide), Stores.readFile_setFile,
                secretDoc_read] at hkp
              exact congrArg KeyringPayload.refreshToken (Option.some.inj hkp).symm

/-- a refresh that brought no new token has at most deleted its entry; one that did went on to save it -/
theorem refresh_effect (h : Path (RefreshTurn K) (.holding st) tr q) (hs : Path Serves s tr s') :
    ((tr.flatMap (marks K) = [] ∨ tr.flatMap (marks K) = [.asked st.refreshToken]) ∧
        (s' = s ∨ s' = s.setEntry st.uid none) ∧ ∀ st', q ≠ .ready st') ∨
      ∃ resp tok t, tr = answeredWith st resp :: t ∧ Rotates K resp tok ∧
        Path (RefreshTurn K) (.answered st tok) t q ∧ Path Serves s t s' := by
  cases h with
  | nil =>
    obtain rfl := hs.nil_inv
    exact .inl ⟨.inl rfl, .inl rfl, nofun⟩
  | cons hturn hrest =>
    cases hs with
    | cons hsend hs =>
      cases hturn with
      | unanswered =>
        obtain rfl := hsend.other_inv rfl
        cases hrest with
        | nil =>
          obtain rfl := hs.nil_inv
          exact .inl ⟨.inr rfl, .inl rfl, nofun⟩
        | cons hturn => cases hturn
      | unread _ hstatus hanswer =>
        obtain rfl := hsend.other_inv rfl
        cases hrest with
        | nil =>
          obtain rfl := hs.nil_inv
          refine .inl ⟨.inr ?_, .inl rfl, nofun⟩
          show .asked st.refreshToken :: parsedToken K _ ++ [] = _
          rw [parsedToken_unread hstatus hanswer]
          rfl
        | cons hturn => cases hturn
      | @rejects _ resp hrejects =>
        obtain rfl := hsend.other_inv rfl
        have hmarks : ∀ a : Except KeyringError Unit, List.flatMap (marks K)
            [answeredWith st resp, ⟨.deleteKeyring st.uid, a⟩] = [.asked st.refreshToken] := by
          intro a
          show .asked st.refreshToken :: parsedToken K _ ++ [] = _
          rw [parsedToken_rejects hrejects]
          rfl
        cases hrest with
        | nil =>
          obtain rfl := hs.nil_inv
          exact .inl ⟨.inr (hmarks (.ok ())), .inl rfl, nofun⟩
        | cons hturn hrest =>
          cases hturn with
          | clears _ a =>
            cases hrest with
            | cons hturn => cases hturn
            | nil =>
              refine .inl ⟨.inr (hmarks a), ?_, nofun⟩
              rcases hs.one_inv.deleteKeyring_inv with ⟨_, rfl⟩ | ⟨_, rfl⟩
              · exact .inr rfl
              · exact .inl rfl
      | answers _ hrotates =>
        obtain rfl := hsend.other_inv rfl
        exact .inr ⟨_, _, _, rfl, hrotates, hrest, hs⟩

/-! ## courses -/

/-- every request carried the token that was the newest then -/
def SentNewest (ms : List Mark) : Prop :=
  ∀ a token b, ms = a ++ .asked token :: b → ∀ last, newest a = some last → token = last

/-- the stores and the memory hold the newest token, once there is one -/
def HoldsNewest (s : Stores) (m : Option SessionState) (ms : List Mark) : Prop :=
  ∀ token, newest ms = some token →
    ∃ uid, Fresh s uid token ∧ ∀ st, m = some st → st.uid = uid ∧ st.refreshToken = token

theorem sentNewest_nil : SentNewest [] := by
  intro a token b hsplit
  have hlen := congrArg List.length hsplit
  simp at hlen

theorem SentNewest.concat {m : Mark} (h : SentNewest ms)
    (hlast : ∀ token, m = .asked token → ∀ last, newest ms = some last → token = last) :
    SentNewest (ms ++ [m]) := by
  intro a token b hsplit last hnewest
  rcases List.eq_nil_or_concat b with rfl | ⟨b', m', rfl⟩
  · obtain ⟨rfl, hm⟩ := List.append_inj' hsplit rfl
    exact hlast token (List.cons.inj hm).1 last hnewest
  · have hsplit' : ms ++ [m] = (a ++ .asked token :: b') ++ [m'] := by
      rw [hsplit]
      simp
    obtain ⟨rfl, _⟩ := List.append_inj' hsplit' rfl
    exact h a token b' rfl last hnewest

/-- a refresh of a course whose refreshes keep the newest token -/
theorem refresh_keeps {o : Outcome (Except SessionManagerError SessionState)}
    (hsent : SentNewest ms) (hheld : HoldsNewest s (some st) ms)
    (hrun : Runs (doRefresh K st).run tr o) (hs : Path Serves s tr s') (hkept : Kept K s st tr) :
    SentNewest (ms ++ tr.flatMap (marks K)) ∧
      HoldsNewest s' (st.after o) (ms ++ tr.flatMap (marks K)) := by
  have hnew : ∀ last, newest ms = some last → st.refreshToken = last := by
    intro last hlast
    obtain ⟨uid, _, hmem⟩ := hheld last hlast
    exact (hmem st rfl).2
  have hasked : SentNewest (ms ++ [.asked st.refreshToken]) :=
    hsent.concat fun token htoken last hlast => by
      cases htoken
      exact hnew last hlast
  obtain ⟨q, hpath, hends⟩ := doRefresh_path hrun
  rcases refresh_effect hpath hs with ⟨hmarks, hstores, hready⟩ |
    ⟨resp, tok, t, rfl, hrotates, hsave, hserve⟩
  · have hsame : newest (ms ++ tr.flatMap (marks K)) = newest ms := by
      rcases hmarks with hmarks | hmarks
      · rw [hmarks, List.append_nil]
      · rw [hmarks, newest_asked]
    refine ⟨?_, fun token htoken => ?_⟩
    · rcases hmarks with hmarks | hmarks
      · rw [hmarks, List.append_nil]
        exact hsent
      · rw [hmarks]
        exact hasked
    · rw [hsame] at htoken
      obtain ⟨uid, hfresh, hmem⟩ := hheld token htoken
      refine ⟨uid, ?_, ?_⟩
      · rcases hstores with rfl | rfl
        · exact hfresh
        · exact hfresh.deleted _
      · intro st' hst'
        match o with
        | .done (.ok st₁) => exact absurd (hends.ok st₁ rfl) (hready st₁)
        | .done (.error e) =>
          cases hst'
          exact hmem st rfl
        | .running => cases hst'
        | .cut => cases hst'
  · have hmarks : marks K (answeredWith st resp) = _ := marks_answered hrotates
    obtain ⟨_, hsession, hkeyring⟩ := hkept tok.refreshToken (by
      rw [List.flatMap_cons, hmarks]
      exact List.mem_append_left _ (List.mem_cons_of_mem _ List.mem_cons_self))
    obtain ⟨now, a, nowUnix, now', rfl, rfl⟩ := saved_path hsave hsession
    have hall : ms ++ (answeredWith st resp :: savedCalls st tok now a nowUnix now').flatMap (marks K) =
        ms ++ [.asked st.refreshToken] ++ [.parsed tok.refreshToken] := by
      rw [List.flatMap_cons, hmarks, List.append_assoc]
      rfl
    rw [hall]
    refine ⟨hasked.concat nofun, fun token htoken => ?_⟩
    rw [newest_parsed] at htoken
    cases htoken
    refine ⟨st.uid, fresh_saved hserve ?_, ?_⟩
    · rcases hkeyring with hwrites | hnone
      · cases a with
        | ok _ => exact .inl rfl
        | error e => cases hwrites
      · exact .inr hnone
    · intro st' hst'
      match o with
      | .done (.ok st₁) =>
        cases hends.ok st₁ rfl
        cases hst'
        exact ⟨rfl, rfl⟩
      | .done (.error e) => cases hends.error e rfl
      | .running => cases hst'
      | .cut => cases hst'

/-- in a course whose refreshes keep the newest token, every request carries the token of the last answer
that was parsed before it, and no rotated-out token is left in memory or in what can be resumed -/
theorem newest_token_sent {m : Option SessionState} (h : Course K (Kept K) s m ms) :
    SentNewest ms ∧ HoldsNewest s m ms := by
  induction h with
  | start => exact ⟨sentNewest_nil, nofun⟩
  | refresh _ hrun hs hkept ih => exact refresh_keeps ih.1 ih.2 hrun hs hkept
  | restart _ hsurvives hrun hs ih =>
    refine ⟨ih.1, fun token htoken => ?_⟩
    obtain ⟨uid, hfresh, _⟩ := ih.2 token htoken
    obtain ⟨rfl, sf, kp, hresumes, huid, _, htok, _⟩ := fromKeyring_ok hrun hs
    have hfresh := hfresh.survives hsurvives
    obtain ⟨hsf, hkp⟩ := hfresh.resumed hresumes
    refine ⟨uid, hfresh, ?_⟩
    intro st' hst'
    cases hst'
    exact ⟨huid.trans hsf, htok.trans hkp⟩

end

/-! ## a write that fails -/

section
variable {K : Crates} {st : SessionState} {tok : Auth.RefreshResponse}

theorem doRefresh_answered (st : SessionState) {resp : JsonResponse} {tr : Trace sessionHost}
    {o : Outcome (Except SessionManagerError SessionState)} (hrotates : Rotates K resp tok)
    (h : Runs (saveRotated st tok).run tr o) :
    Runs (doRefresh K st).run (answeredWith st resp :: tr) o := by
  refine .call ?_
  show Runs (ExceptT.run (if resp.status = 401 ∨ resp.status = 422 then
    caught (deleteKeyring st.uid) >>= fun _ => throw .sessionExpired
    else orFail id (refreshAnswer K resp) >>= fun tok => saveRotated st tok)) tr o
  have hstatus : ¬ (resp.status = 401 ∨ resp.status = 422) := hrotates.1
  rw [if_neg hstatus, hrotates.2]
  exact h

theorem savedCalls_runs (now : Nat) (nowUnix now' : Nat) :
    Runs (saveRotated st tok).run (savedCalls st tok now (.ok ()) nowUnix now')
      (.done (.ok (st.rotated tok (now + TOKEN_LIFE)))) :=
  .call (.call (.call (.call (.call (.call (.ret _))))))

/-- a forced refresh at `now` that is answered and can save everything -/
def forcedTrace (st : SessionState) (resp : JsonResponse) (tok : Auth.RefreshResponse) (now : Nat) :
    Trace sessionHost :=
  ⟨.acquire, st⟩ :: answeredWith st resp :: (savedCalls st tok now (.ok ()) 0 now ++
    [⟨.replace (st.rotated tok (now + TOKEN_LIFE)), ()⟩, ⟨.release, ()⟩])

theorem forcedTrace_runs {resp : JsonResponse} (st : SessionState) (hrotates : Rotates K resp tok) (now : Nat) :
    Runs (forceRefresh K).run (forcedTrace st resp tok now) (.done (.ok ())) :=
  .call (caught_runs (doRefresh_answered st hrotates (savedCalls_runs now 0 now)) (.call (.call (.ret _))))

end

/-- a document that is read as new tokens -/
theorem smallCrates_rotates {D : List Json} (hdocs : (D.map textOf).Nodup) {j : Json} (hj : j ∈ D)
    {tok : Auth.RefreshResponse} (hdec : ResponseEnvelope.ofJson Auth.RefreshResponse.ofJson j =
      some { code := CODE_OK, inner := tok, error := none }) :
    Rotates (smallCrates D) { status := 200, headers := [], body := textOf j } tok := by
  refine ⟨?_, ?_⟩
  · rintro (h | h) <;> cases h
  · have hparse : (smallCrates D).jsonParse (textOf j) = some j := readTable_textOf hdocs hj
    unfold refreshAnswer Crates.fromSlice
    rw [hparse, Option.bind_some, hdec]
    rfl

def rotatedDoc : Json :=
  .obj [("Code", .num 1000), ("AccessToken", .str "a1"), ("RefreshToken", .str "r1")]

def rotatedTokens : Auth.RefreshResponse := { accessToken := "a1", refreshToken := "r1" }

def rotatedResponse : JsonResponse := { status := 200, headers := [], body := textOf rotatedDoc }

def rotatedCrates : Crates := smallCrates [rotatedDoc]

theorem rotated_rotates : Rotates rotatedCrates rotatedResponse rotatedTokens :=
  @smallCrates_rotates [rotatedDoc] (List.nodup_singleton _) _ List.mem_cons_self _ rfl

/-- the calls of a refresh that could not write the secret file -/
def unsecuredCalls : Trace sessionHost :=
  [⟨.now, (0 : Nat)⟩, ⟨.setKeyring "u" (secretDoc "u" "r1" "kp"), .ok ()⟩,
    ⟨.writeFile .secret (secretDoc "u" "r1" "kp"), .error (.other "no space left on device")⟩]

theorem unsecuredCalls_runs : Runs (saveRotated smallState rotatedTokens).run unsecuredCalls
    (.done (.error (.io (.other "no space left on device")))) :=
  .call (.call (.call (.ret _)))

/-- a refresh that is asked for, and not answered -/
def unansweredTrace (st : SessionState) : Trace sessionHost :=
  [⟨.requestJson (refreshRequest st), .error (.network "connection refused")⟩]

theorem unansweredTrace_runs (K : Crates) (st : SessionState) :
    Runs (doRefresh K st).run (unansweredTrace st)
      (.done (.error (.http (.network "connection refused")))) :=
  .call (.ret _)

/-- the stores of a login whose keyring and secret file could be written -/
def loginStores : Stores := smallStores (some (some (secretDoc "u" "r0" "kp")))

/-- the old token is left in memory, and the next refresh asks with it -/
theorem failedWrite_sendsOld : ∃ s m ms, Course rotatedCrates (fun _ _ _ => True) s m ms ∧
    ¬ SentNewest ms := by
  have hlogin : Course rotatedCrates (fun _ _ _ => True) loginStores (some smallState) [] :=
    .start _ _
  have hfirst := hlogin.refresh (doRefresh_answered _ rotated_rotates unsecuredCalls_runs)
    (.cons (.other _ rfl) (.cons (.other _ rfl) (.cons (.setKeyring _ _ _)
      (.one (.writeFileFailed _ _ _ _ (.inl rfl)))))) trivial
  have hsecond := hfirst.refresh (unansweredTrace_runs _ _) (.one (.other _ rfl)) trivial
  refine ⟨_, _, _, hsecond, fun hsent => ?_⟩
  have hmarks : (answeredWith smallState rotatedResponse :: unsecuredCalls).flatMap
      (marks rotatedCrates) = [.asked "r0", .parsed "r1"] := by
    rw [List.flatMap_cons, marks_answered rotated_rotates]
    rfl
  rw [hmarks] at hsent
  have hold : "r0" = "r1" := hsent [.asked "r0", .parsed "r1"] "r0" [] rfl "r1" rfl
  exact absurd hold (by decide)

/-- a refresh that could write everything, and the next one -/
theorem keptRotation_sendsNew :
    SentNewest [.asked "r0", .parsed "r1", .asked "r1"] := by
  have hlogin : Course rotatedCrates (Kept rotatedCrates) loginStores (some smallState) [] :=
    .start _ _
  have hfirst := hlogin.refresh
    (doRefresh_answered _ rotated_rotates (savedCalls_runs 0 0 0))
    (.cons (.other _ rfl) (.cons (.other _ rfl) (.cons (.setKeyring _ _ _)
      (.cons (.writeFile _ _ _) (.cons (.other _ rfl) (.cons (.other _ rfl)
        (.one (.writeFile _ _ _))))))))
    (fun _ _ => ⟨rfl, rfl, .inl rfl⟩)
  have hsecond := hfirst.refresh (unansweredTrace_runs _ _) (.one (.other _ rfl))
    (fun _ htoken => by cases List.mem_singleton.mp htoken)
  have hmarks : (answeredWith smallState rotatedResponse ::
      savedCalls smallState rotatedTokens 0 (.ok ()) 0 0).flatMap (marks rotatedCrates) =
        [.asked "r0", .parsed "r1"] := by
    rw [List.flatMap_cons, marks_answered rotated_rotates]
    rfl
  have hsent := (newest_token_sent hsecond).1
  rw [hmarks] at hsent
  exact hsent

end ProtonDrive
