import ProtonDrive.Account.Salts
import ProtonDrive.Session.Commands
import ProtonDrive.Session.Rotation

/-!
# What a login leaves in the stores

* `SignedIn`             what the terminal and the server were asked, and answered, when a sign-in succeeded;
* `LoginDoc`             the documents of the credentials that were got;
* `Persisted`            what is read of them afterwards, where the keyring may have kept an older entry;
* `runLogin_persists`    the stores are written after a sign-in only, and only with its credentials.
-/

set_option linter.unusedVariables false

namespace ProtonDrive
open Encoding Effects Api Paths

/-! ## the login -/

section
variable (S : SrpModule) (K : Crates)

/-- the part of the login before anything is stored -/
def signInAtPrompt (baseUrl appVersion : String) : Command LoginError Login.Credentials := do
  let username ← prompt "Email: "
  let answer ← tell (.promptPassword "Password: ")
  let password ← orRaise .io answer
  let client ← tell (.newClient baseUrl appVersion)
  orRaise (fun e => .auth (.http e)) client
  tell (.eprintln "Authenticating…")
  onHost .auth (login S K username password)

def persistLogin (creds : Login.Credentials) : Command LoginError Unit := do
  let st ← onSession .session (fromLogin (sessionCredentials creds) (30 * 60))
  tell (.build st)
  tell (.eprintln "✓ session persisted (keyring + session.json)")
  tell (.eprintln ("✓ logged in as " ++ creds.username))

theorem split_after {ε α β γ : Type} {p : Command ε α} {f : α → Command ε γ} {g : α → Command ε β}
    {k : β → Command ε γ} (h : ∀ a, f a = g a >>= k) : p >>= f = (p >>= g) >>= k := by
  rw [bind_assoc]
  exact congrArg (p >>= ·) (funext h)

theorem loginInteractive_eq (baseUrl appVersion : String) : loginInteractive S K baseUrl appVersion =
    signInAtPrompt S K baseUrl appVersion >>= persistLogin := by
  refine split_after fun username => split_after fun answer => split_after fun password => ?_
  refine split_after fun client => split_after fun _ => split_after fun _ => ?_
  rfl

def authInfoRequest (username : String) : JsonRequest :=
  .bare .post "/core/v4/auth/info" (some (Auth.AuthInfoRequest.toJson { username }))

def authRequest (username srpSession : String) (exchange : SrpExchange) : JsonRequest :=
  .bare .post "/core/v4/auth" (some (Auth.AuthRequest.toJson
    { username, clientEphemeral := exchange.clientEphemeral, clientProof := exchange.clientProof,
      srpSession }))

/-- the requests of a login that succeeded: the server has proved that it knows the password, no second
factor is enabled, and the mailbox password is made with a salt of the list -/
inductive LoginAnswered (username password : String) : Login.Credentials → Trace host → Prop
  | mk {info : Auth.AuthInfoResponse} {coins : Coins} {exchange : SrpExchange} {auth : Auth.AuthResponse}
      {salts : Auth.KeySaltsResponse} {keyPassword : String} {resp₁ resp₂ resp₃ : JsonResponse}
      (hinfo : parseEnvelope K "AuthInfoResponse" Auth.AuthInfoResponse.ofJson resp₁.body = .ok info)
      (hexchange : S.getSrp info.version info.modulus info.serverEphemeral info.salt password coins =
        .ok exchange)
      (hauth : parseEnvelope K "AuthResponse" Auth.AuthResponse.ofJson resp₂.body = .ok auth)
      (hproof : auth.serverProof = exchange.expectedServerProof) (hfactor : auth.twoFactor.enabled = 0)
      (hsalts : parseEnvelope K "KeySaltsResponse" Auth.KeySaltsResponse.ofJson resp₃.body = .ok salts)
      (hkey : saltedKeyPassword S K password salts.keySalts = .ok keyPassword) :
      LoginAnswered username password (credentialsOf username auth keyPassword)
        [⟨.requestJson (authInfoRequest username), .ok resp₁⟩, ⟨.coins, coins⟩,
          ⟨.requestJson (authRequest username info.srpSession exchange), .ok resp₂⟩,
          ⟨.requestJson (keySaltsRequest auth), .ok resp₃⟩]

/-- a sign-in at the terminal that succeeded -/
inductive SignedIn (baseUrl appVersion : String) : Login.Credentials → Trace cliHost → Prop
  | mk {line password : String} {creds : Login.Credentials} {tr : Trace host}
      (h : LoginAnswered S K (String.ofList (Strings.trim line.toList)) password creds tr) :
      SignedIn baseUrl appVersion creds
        ([⟨.print "Email: ", ()⟩, ⟨.flushStdout, .ok ()⟩, ⟨.readLine, .ok line⟩,
          ⟨.promptPassword "Password: ", .ok password⟩, ⟨.newClient baseUrl appVersion, .ok ()⟩,
          ⟨.eprintln "Authenticating…", ()⟩] ++ tr.map Event.ofHost)

end

section
variable {S : SrpModule} {K : Crates} {username password : String} {tr : Trace host}

theorem orAuthError_ok {ε α : Type} {f : ε → AuthError} {r : Except ε α} {a : α}
    (h : Runs (orAuthError f r).run tr (.done (.ok a))) : tr = [] ∧ r = .ok a := by
  cases r with
  | ok b =>
    obtain ⟨rfl, h | h⟩ := Runs.ret_inv h
    · cases h
      exact ⟨rfl, rfl⟩
    · cases h
  | error e => obtain ⟨_, h | h⟩ := Runs.ret_inv h <;> cases h

theorem sendParsed_ok {α : Type} {type : String} {dec : Json → Option α} {req : JsonRequest} {a : α}
    (h : Runs (sendParsed K type dec req).run tr (.done (.ok a))) :
    ∃ resp, tr = [⟨.requestJson req, .ok resp⟩] ∧ parseEnvelope K type dec resp.body = .ok a := by
  rcases Runs.call_inv h with ⟨_, ho⟩ | ⟨answer, t, rfl, k⟩
  · cases ho
  · have k : Runs (orAuthError .http answer >>= fun resp =>
        orAuthError id (parseEnvelope K type dec resp.body) : LoginM α).run t (.done (.ok a)) := k
    obtain ⟨resp, t₁, u₁, rfl, h₁, k₁⟩ := k.bindE_ok
    obtain ⟨rfl, rfl⟩ := orAuthError_ok h₁
    obtain ⟨rfl, hparse⟩ := orAuthError_ok k₁
    exact ⟨resp, rfl, hparse⟩

theorem login_ok {creds : Login.Credentials}
    (h : Runs (login S K username password).run tr (.done (.ok creds))) :
    LoginAnswered S K username password creds tr := by
  obtain ⟨auth, t₁, u₁, rfl, h₁, k₁⟩ := h.bindE_ok
  obtain ⟨salts, t₂, u₂, rfl, h₂, k₂⟩ := k₁.bindE_ok
  obtain ⟨keyPassword, t₃, u₃, rfl, h₃, k₃⟩ := k₂.bindE_ok
  obtain ⟨resp₃, rfl, hsalts⟩ := sendParsed_ok h₂
  obtain ⟨rfl, hkey⟩ := orAuthError_ok h₃
  obtain ⟨rfl, ho | ho⟩ := Runs.ret_inv k₃
  · cases ho
    obtain ⟨info, t₄, u₄, rfl, h₄, k₄⟩ := Runs.bindE_ok h₁
    obtain ⟨resp₁, rfl, hinfo⟩ := sendParsed_ok h₄
    rcases Runs.call_inv k₄ with ⟨_, ho⟩ | ⟨coins, t, rfl, k₅⟩
    · cases ho
    · have k₅ : Runs (orAuthError .crypto (S.getSrp info.version info.modulus info.serverEphemeral
          info.salt password coins) >>= _ : LoginM Auth.AuthResponse).run t (.done (.ok auth)) := k₅
      obtain ⟨exchange, t₆, u₆, rfl, h₆, k₆⟩ := k₅.bindE_ok
      obtain ⟨rfl, hexchange⟩ := orAuthError_ok h₆
      obtain ⟨authResp, t₇, u₇, rfl, h₇, k₇⟩ := k₆.bindE_ok
      obtain ⟨resp₂, rfl, hauth⟩ := sendParsed_ok h₇
      by_cases hproof : authResp.serverProof = exchange.expectedServerProof
      · rw [if_neg (not_not_intro hproof)] at k₇
        by_cases hfactor : authResp.twoFactor.enabled = 0
        · rw [if_neg (not_not_intro hfactor)] at k₇
          obtain ⟨rfl, ho | ho⟩ := Runs.ret_inv k₇
          · cases ho
            exact .mk hinfo hexchange hauth hproof hfactor hsalts hkey
          · cases ho
        · rw [if_pos hfactor] at k₇
          obtain ⟨_, k₇ | k₇⟩ := Runs.ret_inv k₇ <;> cases k₇
      · rw [if_pos hproof] at k₇
        obtain ⟨_, k₇ | k₇⟩ := Runs.ret_inv k₇ <;> cases k₇
  · cases ho

end

section
variable {S : SrpModule} {K : Crates} {baseUrl appVersion : String} {creds : Login.Credentials}
  {tr : Trace cliHost} {w w' : CliWorld}

theorem prompt_ok {label buf : String} (h : Runs (prompt label).run tr (.done (.ok buf))) :
    ∃ line, tr = [⟨.print label, ()⟩, ⟨.flushStdout, .ok ()⟩, ⟨.readLine, .ok line⟩] ∧
      buf = String.ofList (Strings.trim line.toList) := by
  obtain ⟨_, t₁, u₁, rfl, h₁, k₁⟩ := h.bindE_ok
  obtain ⟨flushed, t₂, u₂, rfl, h₂, k₂⟩ := k₁.bindE_ok
  obtain ⟨_, t₃, u₃, rfl, h₃, k₃⟩ := k₂.bindE_ok
  obtain ⟨line, t₄, u₄, rfl, h₄, k₄⟩ := k₃.bindE_ok
  obtain ⟨text, t₅, u₅, rfl, h₅, k₅⟩ := k₄.bindE_ok
  obtain rfl := tell_ok h₁
  obtain rfl := tell_ok h₂
  obtain ⟨rfl, rfl⟩ := orRaise_ok h₃
  obtain rfl := tell_ok h₄
  obtain ⟨rfl, rfl⟩ := orRaise_ok h₅
  obtain ⟨rfl, rfl⟩ := returned_inv k₅
  exact ⟨text, rfl, rfl⟩

theorem signInAtPrompt_ok (h : Runs (signInAtPrompt S K baseUrl appVersion).run tr (.done (.ok creds))) :
    SignedIn S K baseUrl appVersion creds tr := by
  obtain ⟨username, t₁, u₁, rfl, h₁, k₁⟩ := h.bindE_ok
  obtain ⟨answer, t₂, u₂, rfl, h₂, k₂⟩ := k₁.bindE_ok
  obtain ⟨password, t₃, u₃, rfl, h₃, k₃⟩ := k₂.bindE_ok
  obtain ⟨client, t₄, u₄, rfl, h₄, k₄⟩ := k₃.bindE_ok
  obtain ⟨_, t₅, u₅, rfl, h₅, k₅⟩ := k₄.bindE_ok
  obtain ⟨_, t₆, u₆, rfl, h₆, k₆⟩ := k₅.bindE_ok
  obtain ⟨line, rfl, rfl⟩ := prompt_ok h₁
  obtain rfl := tell_ok h₂
  obtain ⟨rfl, rfl⟩ := orRaise_ok h₃
  obtain rfl := tell_ok h₄
  obtain ⟨rfl, rfl⟩ := orRaise_ok h₅
  obtain rfl := tell_ok h₆
  obtain ⟨t, rfl, hlogin⟩ := onHost_ok k₆
  exact .mk (login_ok hlogin)

theorem signInAtPrompt_only :
    Only (fun c => isAside c = true) (signInAtPrompt S K baseUrl appVersion).run := by
  have hprompt : Only (fun c => isAside c = true) (prompt "Email: ").run := by
    refine ⟨rfl, fun _ => ⟨rfl, fun flushed => Only.bindE orRaise_only fun _ => ⟨rfl, fun line => ?_⟩⟩⟩
    exact Only.bindE orRaise_only fun _ => trivial
  refine Only.bindE hprompt fun username => ⟨rfl, fun answer => Only.bindE orRaise_only fun password => ?_⟩
  refine ⟨rfl, fun client => Only.bindE orRaise_only fun _ => ⟨rfl, fun _ => ?_⟩⟩
  exact onHost_only fun c => rfl

/-- what a login persists -/
inductive LoginDoc (creds : Login.Credentials) : Slot → Json → Prop
  | keyring : LoginDoc creds (.keyring creds.uid) (secretDoc creds.uid creds.refreshToken creds.keyPassword)
  | secret : LoginDoc creds (.file .secret) (secretDoc creds.uid creds.refreshToken creds.keyPassword)
  | session (nowUnix now expiresAt : Nat) :
      LoginDoc creds (.file .session) (sessionDoc creds.uid creds.accessToken nowUnix now expiresAt)

theorem persistLogin_only :
    Only (fun c => ∀ X doc, cliWritten c = some (X, doc) → LoginDoc creds X doc) (persistLogin creds).run := by
  have hlogin : Only (fun c => ∀ X doc, writtenDoc c = some (X, doc) → LoginDoc creds X doc)
      (fromLogin (sessionCredentials creds) (30 * 60)).run := by
    refine ⟨nofun, fun now : Nat => ?_⟩
    have hkeyring : Only (fun c => ∀ X doc, writtenDoc c = some (X, doc) → LoginDoc creds X doc)
        (saveKeyring creds.uid creds.refreshToken creds.keyPassword).run := by
      refine ⟨fun X doc h => ?_, fun set => orFail_only⟩
      cases h
      exact .keyring
    have hsecret : Only (fun c => ∀ X doc, writtenDoc c = some (X, doc) → LoginDoc creds X doc)
        (saveSecretFile creds.uid creds.refreshToken creds.keyPassword).run := by
      refine ⟨fun X doc h => ?_, fun written => orFail_only⟩
      cases h
      exact .secret
    have hsession : Only (fun c => ∀ X doc, writtenDoc c = some (X, doc) → LoginDoc creds X doc)
        (writeSessionFile creds.uid creds.accessToken (now + 30 * 60 * NANOS_PER_SEC)).run := by
      refine ⟨nofun, fun nowUnix : Nat => ⟨nofun, fun now' : Nat => ⟨fun X doc h => ?_, fun w => orFail_only⟩⟩⟩
      cases h
      exact .session nowUnix now' _
    refine Only.bindE (p := caught _) ?_ fun _ => Only.bindE hsecret fun _ => Only.bindE hsession fun _ => trivial
    exact Only.bind hkeyring fun _ => trivial
  refine Only.bindE (onSession_only hlogin fun c hc => hc) fun st => ?_
  exact ⟨nofun, fun _ => ⟨nofun, fun _ => ⟨nofun, fun _ => trivial⟩⟩⟩

end

/-! ## what a login leaves -/

section
variable {tr : Trace sessionHost} {s s' : Stores} {creds : Credentials} {st : SessionState} {life : Nat}

def savedPayload (creds : Credentials) : KeyringPayload where
  uid := creds.uid
  refreshToken := creds.refreshToken
  keyPassword := creds.keyPassword

/-- the writes of a login that goes through; the first may have failed -/
theorem fromLogin_ok (h : Runs (fromLogin creds life).run tr (.done (.ok st))) :
    ∃ (now nowUnix now' : Nat) (set : Except KeyringError Unit),
      tr = [⟨.now, now⟩,
        ⟨.setKeyring creds.uid (secretDoc creds.uid creds.refreshToken creds.keyPassword), set⟩,
        ⟨.writeFile .secret (secretDoc creds.uid creds.refreshToken creds.keyPassword), .ok ()⟩,
        ⟨.unixNow, nowUnix⟩, ⟨.now, now'⟩,
        ⟨.writeFile .session (sessionDoc creds.uid creds.accessToken nowUnix now'
          (now + life * NANOS_PER_SEC)), .ok ()⟩] := by
  obtain ⟨now, t₁, u₁, rfl, h₁, k₁⟩ := h.bindE_ok
  obtain rfl := ask_ok h₁
  rcases caught_inv k₁ with ⟨r, t₂, u₂, rfl, h₂, k₂⟩ | ⟨o₁, ho, _⟩
  · obtain ⟨_, t₃, u₃, rfl, h₃, k₃⟩ := Runs.bindE_ok k₂
    obtain ⟨_, t₄, u₄, rfl, h₄, k₄⟩ := k₃.bindE_ok
    obtain ⟨rfl, rfl⟩ := done_inv k₄
    obtain ⟨written, t₅, u₅, rfl, h₅, k₅⟩ := h₃.bindE_ok
    obtain rfl := ask_ok h₅
    obtain ⟨rfl, rfl⟩ := orFail_ok k₅
    obtain ⟨nowUnix, t₆, u₆, rfl, h₆, k₆⟩ := h₄.bindE_ok
    obtain ⟨now', t₇, u₇, rfl, h₇, k₇⟩ := k₆.bindE_ok
    obtain ⟨written', t₈, u₈, rfl, h₈, k₈⟩ := k₇.bindE_ok
    obtain rfl := ask_ok h₆
    obtain rfl := ask_ok h₇
    obtain rfl := ask_ok h₈
    obtain ⟨rfl, rfl⟩ := orFail_ok k₈
    rcases Runs.call_inv h₂ with ⟨_, ho⟩ | ⟨set, t, rfl, k⟩
    · cases ho
    · have k : Runs (orFail (fun e : KeyringError => .keyring e.display) set : Session Unit).run t
        (.done r) := k
      have hnil : t = [] := by
        cases set with
        | ok _ => exact (Runs.ret_inv k).1
        | error e => exact (Runs.ret_inv k).1
      subst hnil
      exact ⟨now, nowUnix, now', set, rfl⟩
  · rcases ho.eq with ⟨_, ho⟩ | ⟨_, ho⟩ <;> cases ho

/-- the keyring took the new secret, or had no entry with another one -/
def NoStaleEntry (creds : Credentials) (s : Stores) (tr : Trace sessionHost) : Prop :=
  ⟨.setKeyring creds.uid (secretDoc creds.uid creds.refreshToken creds.keyPassword), .ok ()⟩ ∈ tr ∨
    ∀ text, s.keyring creds.uid = some text → text.bind KeyringPayload.ofJson = some (savedPayload creds)

/-- what is resumed from where the secret file holds the secret of `creds` -/
theorem secretOf_saved (hsecret : s.readFile .secret KeyringPayload.ofJson = some (savedPayload creds)) :
    s.secretOf creds.uid = some (savedPayload creds) ↔ ∀ text, s.keyring creds.uid = some text →
      text.bind KeyringPayload.ofJson = some (savedPayload creds) := by
  unfold Stores.secretOf
  cases hentry : s.keyring creds.uid with
  | some text =>
    constructor
    · intro h text' htext
      cases htext
      exact h
    · exact fun h => h text rfl
  | none =>
    rw [hsecret]
    refine ⟨fun _ => nofun, fun _ => ?_⟩
    exact Option.filter_eq_some_iff.mpr ⟨rfl, decide_eq_true rfl⟩

/-- what is read of the two files after both were written -/
theorem Stores.files_read (s : Stores) (creds : Credentials) (nowUnix now expiresAt : Nat) :
    ((s.setFile .secret (some (some (secretDoc creds.uid creds.refreshToken creds.keyPassword)))).setFile
        .session (some (some (sessionDoc creds.uid creds.accessToken nowUnix now expiresAt)))).readFile
        .session SessionFile.ofJson =
      some { uid := creds.uid, accessToken := creds.accessToken,
             expiresAtUnix := expiresAtUnix nowUnix now expiresAt,
             appVersion := defaultAppVersion, baseUrl := defaultBaseUrl } ∧
    ((s.setFile .secret (some (some (secretDoc creds.uid creds.refreshToken creds.keyPassword)))).setFile
        .session (some (some (sessionDoc creds.uid creds.accessToken nowUnix now expiresAt)))).readFile
        .secret KeyringPayload.ofJson = some (savedPayload creds) := by
  have hne : StorePath.secret ≠ .session := nofun
  constructor
  · exact readFile_setFile.trans (sessionDoc_read _ _ _ _ _)
  · exact (readFile_setFile_other hne).trans (readFile_setFile.trans (secretDoc_read _ _ _))

theorem fromLogin_leaves (h : Runs (fromLogin creds life).run tr (.done (.ok st)))
    (hs : Path Serves s tr s') : ∃ sf, sf.uid = creds.uid ∧ sf.accessToken = creds.accessToken ∧
      s'.readFile .session SessionFile.ofJson = some sf ∧
      s'.readFile .secret KeyringPayload.ofJson = some (savedPayload creds) ∧
      (s'.resumes = some (sf, savedPayload creds) ↔ NoStaleEntry creds s tr) := by
  obtain ⟨now, nowUnix, now', set, rfl⟩ := fromLogin_ok h
  cases hs with
  | cons hnow hs =>
    obtain rfl := hnow.other_inv rfl
    cases hs with
    | @cons _ _ s₁ _ _ hset hs =>
      cases hs with
      | cons hsecret hs =>
        obtain rfl := hsecret.writeFile_inv
        cases hs with
        | cons hunix hs =>
          obtain rfl := hunix.other_inv rfl
          cases hs with
          | cons hnow' hs =>
            obtain rfl := hnow'.other_inv rfl
            obtain rfl := hs.one_inv.writeFile_inv
            obtain ⟨hsession, hread⟩ := s₁.files_read creds nowUnix now' (now + life * NANOS_PER_SEC)
            refine ⟨_, rfl, rfl, hsession, hread, ?_⟩
            rw [Stores.resumes_eq_some, and_iff_right hsession]
            show _ = some (savedPayload creds) ↔ _
            rw [secretOf_saved hread]
            show (∀ text, s₁.keyring creds.uid = some text → _) ↔ _
            rcases hset.setKeyring_inv with ⟨rfl, rfl⟩ | ⟨⟨e, rfl⟩, rfl⟩
            · refine ⟨fun _ => .inl (List.mem_cons_of_mem _ List.mem_cons_self), fun _ text htext => ?_⟩
              rw [Stores.setEntry_keyring] at htext
              cases htext
              exact secretDoc_read _ _ _
            · refine ⟨.inr, fun hstale => ?_⟩
              rcases hstale with hmem | hstale
              · obtain _ | ⟨_, _ | ⟨_, _ | ⟨_, _ | ⟨_, _ | ⟨_, _ | ⟨_, hnil⟩⟩⟩⟩⟩⟩ := hmem
                cases hnil
              · exact hstale

end

/-! ## the command -/

/-- the calls of the session among those of a command -/
def Event.session? : Event cliHost → Option (Event sessionHost)
  | ⟨.session c, a⟩ => some ⟨c, a⟩
  | _ => none

/-- a login of `creds` has been reported as done: its documents are in the two files, and they are what is
resumed just if the keyring does not hold an older secret of the same uid -/
def Persisted (creds : Credentials) (s s' : Stores) (tr : Trace cliHost) : Prop :=
  ∃ sf, sf.uid = creds.uid ∧ sf.accessToken = creds.accessToken ∧
    s'.readFile .session SessionFile.ofJson = some sf ∧
    s'.readFile .secret KeyringPayload.ofJson = some (savedPayload creds) ∧
    (s'.resumes = some (sf, savedPayload creds) ↔ NoStaleEntry creds s (tr.filterMap Event.session?))

section
variable {S : SrpModule} {K : Crates} {creds : Login.Credentials} {tr : Trace cliHost} {w w' : CliWorld}
  {o : Outcome ExitCode}

theorem session?_onCli (t : Trace sessionHost) : (t.map Event.onCli).filterMap Event.session? = t := by
  induction t with
  | nil => rfl
  | cons e t ih => exact congrArg (e :: ·) ih

theorem persistLogin_leaves (h : Runs (persistLogin creds).run tr (.done (.ok ())))
    (hs : Path CliServes w tr w') : Persisted (sessionCredentials creds) w.stores w'.stores tr := by
  obtain ⟨st, t₁, u₁, rfl, h₁, k₁⟩ := h.bindE_ok
  obtain ⟨⟨⟩, t₂, u₂, rfl, h₂, k₂⟩ := k₁.bindE_ok
  obtain ⟨⟨⟩, t₃, u₃, rfl, h₃, k₃⟩ := k₂.bindE_ok
  obtain rfl := tell_ok h₂
  obtain rfl := tell_ok h₃
  obtain rfl := tell_ok k₃
  obtain ⟨t, rfl, hlogin⟩ := onSession_ok h₁
  obtain ⟨w₁, hs₁, hs₂⟩ := hs.append_inv
  obtain ⟨sf, huid, htoken, hsession, hsecret, hresumes⟩ := fromLogin_leaves hlogin (served_session hs₁).1
  have hlast : w'.stores = w₁.stores := by
    cases hs₂ with
    | cons hbuild hrest =>
      rw [served_aside hrest (by simp [isAside]), hbuild.build_inv]
  have hcalls : (t.map Event.onCli ++ ([⟨.build st, ()⟩, ⟨.eprintln
      "✓ session persisted (keyring + session.json)", ()⟩,
      ⟨.eprintln ("✓ logged in as " ++ creds.username), ()⟩] : Trace cliHost)).filterMap Event.session? = t := by
    rw [List.filterMap_append, session?_onCli]
    exact List.append_nil t
  rw [← hlast] at hsession hsecret hresumes
  refine ⟨sf, huid, htoken, hsession, hsecret, ?_⟩
  rw [← hcalls] at hresumes
  exact hresumes

/-- a run that has not come to the end of the sign-in has changed nothing -/
def Unsigned (w w' : CliWorld) (o : Outcome ExitCode) : Prop := w'.stores = w.stores ∧ o ≠ .done .success

/-- the run is cut at the end of the sign-in: the stores are as they were, and what is written after it is
of the credentials that were got -/
structure Signed (S : SrpModule) (K : Crates) (creds : Login.Credentials) (pre post : Trace cliHost)
    (w w' : CliWorld) (o : Outcome ExitCode) : Prop where
  signedIn : SignedIn S K defaultBaseUrl defaultAppVersion creds pre
  before : Path CliServes w pre w
  documents : ∀ X doc, w'.stores.at X = some (some doc) →
    w.stores.at X = some (some doc) ∨ LoginDoc creds X doc
  reported : o = .done .success → Persisted (sessionCredentials creds) w.stores w'.stores post

/-- what follows the sign-in, up to the exit code -/
def closing (S : SrpModule) (K : Crates) : Except LoginError Unit → Prog cliHost ExitCode
  | .ok _ => pure .success
  | .error e => do
    Prog.perform (S := cliHost) (.eprintln ("login failed: " ++ e.display))
    return .failure

theorem closing_inv {r : Except LoginError Unit} (h : Runs (closing S K r) tr o) :
    (∀ e ∈ tr, isAside e.call = true) ∧ (o = .done .success → r = .ok () ∧ tr = []) := by
  cases r with
  | ok _ =>
    obtain ⟨rfl, _⟩ := Runs.ret_inv h
    exact ⟨nofun, fun _ => ⟨rfl, rfl⟩⟩
  | error e =>
    have hside : Only (fun c => isAside c = true) (closing S K (.error e)) := ⟨rfl, fun _ => trivial⟩
    refine ⟨h.only hside, ?_⟩
    rintro rfl
    cases (reported h).1

theorem runLogin_split (h : Runs (runLogin S K) tr o) :
    (∀ e ∈ tr, isAside e.call = true) ∧ o ≠ .done .success ∨
      ∃ creds pre post, tr = pre ++ post ∧
        Runs (signInAtPrompt S K defaultBaseUrl defaultAppVersion).run pre (.done (.ok creds)) ∧
        ((∃ t u r, post = t ++ u ∧ Runs (persistLogin creds).run t (.done r) ∧ Runs (closing S K r) u o) ∨
          ∃ o₁, Outcome.Unfinished o₁ o ∧ Runs (persistLogin creds).run post o₁) := by
  have h : Runs ((loginInteractive S K defaultBaseUrl defaultAppVersion).run >>= closing S K) tr o := h
  rw [loginInteractive_eq] at h
  have hside : Only (fun c => isAside c = true)
      (signInAtPrompt S K defaultBaseUrl defaultAppVersion).run := signInAtPrompt_only
  rcases h.bind_inv with ⟨r, t, u, rfl, h₁, k⟩ | ⟨o₁, ho, h₁⟩
  · rcases h₁.bindE_inv with ⟨creds, pre, post, rfl, h₂, h₃⟩ | ⟨o₂, ho, h₂⟩
    · exact .inr ⟨creds, pre, post ++ u, List.append_assoc _ _ _, h₂, .inl ⟨post, u, r, rfl, h₃, k⟩⟩
    · refine .inl ⟨fun e he => ?_, fun hsuccess => ?_⟩
      · rcases List.mem_append.mp he with he | he
        · exact h₂.only hside e he
        · exact (closing_inv k).1 e he
      · obtain ⟨rfl, _⟩ := (closing_inv k).2 hsuccess
        exact ho.not_ok
  · rcases h₁.bindE_inv with ⟨creds, pre, post, rfl, h₂, h₃⟩ | ⟨o₂, _, h₂⟩
    · exact .inr ⟨creds, pre, post, rfl, h₂, .inr ⟨o₁, ho, h₃⟩⟩
    · refine .inl ⟨h₂.only hside, ?_⟩
      rintro rfl
      rcases ho.eq with ⟨_, ho⟩ | ⟨_, ho⟩ <;> cases ho

theorem loginDoc_written {X : Slot} {doc : Json} (htr : ∀ e ∈ tr, isAside e.call = true ∨
      ∀ X doc, cliWritten e.call = some (X, doc) → LoginDoc creds X doc)
    (hs : Path CliServes w tr w') (hX : w'.stores.at X = some (some doc)) :
    w.stores.at X = some (some doc) ∨ LoginDoc creds X doc := by
  rcases served_content hs hX with hX | ⟨e, he, hw⟩
  · exact .inl hX
  · rcases htr e he with hside | hdoc
    · match e, hside, hw with
      | ⟨.session _, _⟩, hside, _ => cases hside
    · exact .inr (hdoc X doc hw)

/-- the stores are written by a login only after the server has proved that it knows the password that was
typed, and only with the credentials it handed out; a login that is reported as done can be resumed, with
these credentials unless the keyring has kept an older entry -/
theorem runLogin_persists (h : Runs (runLogin S K) tr o) (hs : Path CliServes w tr w') :
    Unsigned w w' o ∨ ∃ creds pre post, tr = pre ++ post ∧ Signed S K creds pre post w w' o := by
  rcases runLogin_split h with ⟨hside, hfail⟩ | ⟨creds, pre, post, rfl, hsign, hrest⟩
  · exact .inl ⟨by rw [served_aside hs hside], hfail⟩
  · obtain ⟨w₁, hs₁, hs₂⟩ := hs.append_inv
    obtain rfl := served_aside hs₁ (hsign.only signInAtPrompt_only)
    refine .inr ⟨creds, pre, post, rfl, signInAtPrompt_ok hsign, hs₁, fun X doc hX => ?_, ?_⟩
    · refine loginDoc_written (fun e he => ?_) hs₂ hX
      rcases hrest with ⟨t, u, r, rfl, hpersist, hclose⟩ | ⟨o₁, _, hpersist⟩
      · rcases List.mem_append.mp he with he | he
        · exact .inr (hpersist.only persistLogin_only e he)
        · exact .inl ((closing_inv hclose).1 e he)
      · exact .inr (hpersist.only persistLogin_only e he)
    · rintro rfl
      rcases hrest with ⟨t, u, r, rfl, hpersist, hclose⟩ | ⟨o₁, ho, _⟩
      · obtain ⟨rfl, rfl⟩ := (closing_inv hclose).2 rfl
        rw [List.append_nil] at hs₂ ⊢
        exact persistLogin_leaves hpersist hs₂
      · rcases ho.eq with ⟨_, ho⟩ | ⟨_, ho⟩ <;> cases ho

end

/-! ## a login that is reported as done -/

def noStores : Stores where
  keyring _ := none
  file _ := none

/-- the keyring takes nothing -/
def savedTrace (creds : Credentials) : Trace sessionHost :=
  [⟨.now, (0 : Nat)⟩,
    ⟨.setKeyring creds.uid (secretDoc creds.uid creds.refreshToken creds.keyPassword), .error .noEntry⟩,
    ⟨.writeFile .secret (secretDoc creds.uid creds.refreshToken creds.keyPassword), .ok ()⟩,
    ⟨.unixNow, (0 : Nat)⟩, ⟨.now, (0 : Nat)⟩,
    ⟨.writeFile .session (sessionDoc creds.uid creds.accessToken 0 0 (0 + 30 * 60 * NANOS_PER_SEC)), .ok ()⟩]

def savedState (creds : Credentials) : SessionState where
  uid := creds.uid
  accessToken := creds.accessToken
  refreshToken := creds.refreshToken
  keyPassword := creds.keyPassword
  expiresAt := 0 + 30 * 60 * NANOS_PER_SEC

/-- what is typed before a login -/
def typedTrace : Trace cliHost :=
  [⟨.print "Email: ", ()⟩, ⟨.flushStdout, .ok ()⟩, ⟨.readLine, .ok "me\n"⟩,
    ⟨.promptPassword "Password: ", .ok "pw"⟩, ⟨.newClient defaultBaseUrl defaultAppVersion, .ok ()⟩,
    ⟨.eprintln "Authenticating…", ()⟩]

/-- what is printed after it -/
def printedTrace (creds : Login.Credentials) : Trace cliHost :=
  [⟨.build (savedState (sessionCredentials creds)), ()⟩,
    ⟨.eprintln "✓ session persisted (keyring + session.json)", ()⟩,
    ⟨.eprintln ("✓ logged in as " ++ creds.username), ()⟩]

theorem smallLogin_answered : ∃ creds t,
    Runs (login smallSrp (smallCrates smallSaltDocs) "me" "pw").run t (.done (.ok creds)) := by
  obtain ⟨l⟩ := saltedScript_login [saltOfUser, saltOfAddress] (.inr rfl)
  have hkey : saltedKeyPassword smallSrp (smallCrates smallSaltDocs) "pw" [saltOfUser, saltOfAddress] =
      .ok "mailbox" := saltedKeyPassword_ok.mpr ⟨saltOfUser, rfl, by decide +kernel⟩
  have hresult := l.result_eq
  rw [hkey] at hresult
  exact ⟨_, _, exec_runs l.serve l.before _ _ hresult⟩

theorem typed_me : String.ofList (Strings.trim "me\n".toList) = "me" := by decide +kernel

theorem smallLogin_runs {creds : Login.Credentials} {t : Trace host}
    (h : Runs (login smallSrp (smallCrates smallSaltDocs) "me" "pw").run t (.done (.ok creds))) :
    Runs (runLogin smallSrp (smallCrates smallSaltDocs))
      (((typedTrace ++ t.map Event.ofHost) ++
        ((savedTrace (sessionCredentials creds)).map Event.onCli ++ printedTrace creds)) ++ [])
      (.done .success) := by
  have hsaves : Runs (fromLogin (sessionCredentials creds) (30 * 60)).run (savedTrace (sessionCredentials creds))
      (.done (.ok (savedState (sessionCredentials creds)))) :=
    .call (.call (.call (.call (.call (.call (.ret _))))))
  have hsign : Runs (signInAtPrompt smallSrp (smallCrates smallSaltDocs) defaultBaseUrl defaultAppVersion).run
      (typedTrace ++ t.map Event.ofHost) (.done (.ok creds)) := by
    have hlogin : Runs (onHost .auth (login smallSrp (smallCrates smallSaltDocs)
        (String.ofList (Strings.trim "me\n".toList)) "pw") : Command LoginError Login.Credentials).run
        (t.map Event.ofHost) (.done (.ok creds)) := by
      rw [typed_me]
      exact onHost_runs h
    exact .call (.call (.call (.call (.call (.call hlogin)))))
  have hpersist : Runs (persistLogin creds).run
      ((savedTrace (sessionCredentials creds)).map Event.onCli ++ printedTrace creds) (.done (.ok ())) :=
    Runs.bindE (onSession_runs hsaves) (.call (.call (.call (.ret _))))
  have hwhole := Runs.bindE hsign hpersist
  rw [← loginInteractive_eq] at hwhole
  exact Runs.bind hwhole (.ret _)

/-- the login can be resumed from the secret file -/
theorem smallLogin_persists : ∃ tr w', Runs (runLogin smallSrp (smallCrates smallSaltDocs)) tr
    (.done .success) ∧ Path CliServes ⟨noStores, none⟩ tr w' ∧ ∃ creds pre post, tr = pre ++ post ∧
      Signed smallSrp (smallCrates smallSaltDocs) creds pre post ⟨noStores, none⟩ w' (.done .success) := by
  obtain ⟨creds, t, hlogin⟩ := smallLogin_answered
  have hrun := smallLogin_runs hlogin
  have hsaved : ∃ s', Path Serves noStores (savedTrace (sessionCredentials creds)) s' :=
    ⟨_, .cons (.other _ rfl) (.cons (.setKeyringFailed _ _ _ _) (.cons (.writeFile _ _ _) (.cons (.other _ rfl)
      (.cons (.other _ rfl) (.one (.writeFile _ _ _))))))⟩
  obtain ⟨s', hsaved⟩ := hsaved
  have hasked : ∀ e ∈ typedTrace ++ t.map Event.ofHost, isAside e.call = true := by
    intro e he
    rcases List.mem_append.mp he with he | he
    · have htyped : ∀ e ∈ typedTrace, isAside e.call = true := by simp [typedTrace, isAside]
      exact htyped e he
    · obtain ⟨e', _, rfl⟩ := List.mem_map.mp he
      rfl
  have hkept : Path CliServes ⟨noStores, none⟩ ((savedTrace (sessionCredentials creds)).map Event.onCli)
      ⟨s', none⟩ := session_served hsaved (by simp [savedTrace])
  have hprinted : Path CliServes ⟨s', none⟩ (printedTrace creds)
      ⟨s', some (savedState (sessionCredentials creds))⟩ :=
    .cons (.build _ _) (.cons (.aside _ rfl) (.one (.aside _ rfl)))
  have hpath := ((aside_served hasked).append (hkept.append hprinted)).append (.nil _)
  refine ⟨_, _, hrun, hpath, ?_⟩
  rcases runLogin_persists hrun hpath with ⟨_, hfail⟩ | hsigned
  · exact absurd rfl hfail
  · exact hsigned

end ProtonDrive
