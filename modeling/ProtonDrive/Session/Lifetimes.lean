import ProtonDrive.Session.Cell
import ProtonDrive.Session.Stores

/-!
# Sessions that begin and end

Many sessions share the keyring and the two files.  A login begins a session, and a logout ends it; the
loop of a session and its forced refreshes are parties of their own.  That a manager is dropped is no
event: its loop is detached, and goes on.

* `Machine`, `MachineStep`  the stores and the sessions, and a step of one party;
* `LifePhase`, `LifeTurn`   where a party is, and how a call moves it on;
* `LifeRun`                 an interleaving of logins, one after the other, and the loops, forced refreshes
                            and logouts of their sessions (`LifeRun.parties`: every party makes its turns);
* `writtenDoc`, `owes`, `Serves.content`
                            what a call writes, what a refresh has still to write, and what the stores hold.
-/

set_option linter.unusedVariables false

namespace ProtonDrive
open Encoding Effects Api Paths

/-! ## machines -/

/-- who acts on a session; it has many forced refreshes -/
inductive Party where
  | login (s : Nat)
  | loop (s : Nat)
  | force (s k : Nat)
  | logout (s : Nat)
  deriving DecidableEq

def Party.session : Party → Nat
  | .login s => s
  | .loop s => s
  | .force s _ => s
  | .logout s => s

def Party.refreshes : Party → Bool
  | .loop _ => true
  | .force _ _ => true
  | _ => false

/-- the cell of a session that has not begun holds the state its login will return -/
structure Machine where
  stores : Stores
  cells : Nat → Cell Party

structure MachineStep (w : Machine) (x : Party × Event sessionHost) (w' : Machine) : Prop where
  serves : Serves w.stores x.2 w'.stores
  locks : Locks (w.cells x.1.session) x (w'.cells x.1.session)
  others : ∀ s, s ≠ x.1.session → w'.cells s = w.cells s

structure Login where
  creds : Credentials
  expiresInSecs : Nat

abbrev Chronicle := List (Party × Event sessionHost)

/-- the login of the session `s` has returned -/
def LoggedIn (L : Nat → Login) (w₀ : Machine) (s : Nat) (H : Chronicle) : Prop :=
  Runs (fromLogin (L s).creds (L s).expiresInSecs).run (proj (.login s) H)
    (.done (.ok (w₀.cells s).st))

def LoggedOut (s : Nat) (H : Chronicle) : Prop :=
  Runs logout.run (proj (.logout s) H) (.done (.ok ()))

/-- session 0 is there from the start -/
structure LifeRun (K : Crates) (L : Nat → Login) (w₀ : Machine) (H : Chronicle) (w : Machine) : Prop where
  path : Path MachineStep w₀ H w
  resumed : proj (.login 0) H = []
  logins : ∀ s, ∃ o, Runs (fromLogin (L s).creds (L s).expiresInSecs).run (proj (.login s) H) o
  loops : ∀ s, ∃ fuel o, Runs (proactiveRefreshLoop K fuel).run (proj (.loop s) H) o
  forces : ∀ s k, ∃ o, Runs (forceRefresh K).run (proj (.force s k) H) o
  logouts : ∀ s, ∃ o, Runs logout.run (proj (.logout s) H) o
  /-- a session begins when its login has returned -/
  begun : ∀ pre t e post, H = pre ++ (t, e) :: post → (∀ s, t ≠ .login s) → t.session ≠ 0 →
    LoggedIn L w₀ t.session pre
  /-- logins come one after the other -/
  ordered : ∀ pre s e post, H = pre ++ (.login s, e) :: post → ∀ s' e', (.login s', e') ∈ pre → s' ≤ s

/-! ## turns -/

inductive LifePhase where
  | idle
  | busy (p : RefreshPhase)
  | settled

/-- a party that refreshes does so between two refreshes -/
def restful : SessionCall → Bool
  | .readState => true
  | .now => true
  | .sleepUntil _ => true
  | _ => false

/-- what a logout does -/
def clearing : SessionCall → Bool
  | .readState => true
  | .deleteKeyring _ => true
  | .removeFile _ => true
  | .fileExists _ => true
  | .truncateFile _ => true
  | _ => false

/-- the tokens of a login are saved as those of a refresh are -/
def Login.timed (l : Login) (now : Nat) : RefreshPhase :=
  .timed { uid := l.creds.uid, accessToken := "", refreshToken := "", keyPassword := l.creds.keyPassword,
           expiresAt := 0 }
    { accessToken := l.creds.accessToken, refreshToken := l.creds.refreshToken }
    (now + l.expiresInSecs * NANOS_PER_SEC)

inductive LifeTurn (K : Crates) (L : Nat → Login) :
    Party → LifePhase → Event sessionHost → LifePhase → Prop
  | rests {t e} (ht : t.refreshes = true) (h : restful e.call = true) : LifeTurn K L t .idle e .idle
  | begins {t} (ht : t.refreshes = true) (st : SessionState) :
      LifeTurn K L t .idle ⟨.acquire, st⟩ (.busy (.holding st))
  | refreshes {t p e q} (ht : t.refreshes = true) (h : RefreshTurn K p e q) :
      LifeTurn K L t (.busy p) e (.busy q)
  | replaces {t} (ht : t.refreshes = true) (st) :
      LifeTurn K L t (.busy (.ready st)) ⟨.replace st, ()⟩ .settled
  | ends {t} (ht : t.refreshes = true) : LifeTurn K L t .settled ⟨.release, ()⟩ .idle
  | breaks {t} (ht : t.refreshes = true) (e) : LifeTurn K L t (.busy (.ended e)) ⟨.release, ()⟩ .idle
  | times (s) (now : Nat) : LifeTurn K L (.login s) .idle ⟨.now, now⟩ (.busy ((L s).timed now))
  | saves {s p e q} (h : RefreshTurn K p e q) : LifeTurn K L (.login s) (.busy p) e (.busy q)
  | clears {s e} (h : clearing e.call = true) : LifeTurn K L (.logout s) .idle e .idle

section
variable {K : Crates} {L : Nat → Login} {t : Party} {s : Nat}

theorem life_rests (ht : t.refreshes = true) {c : SessionCall} {f : c.Ans → Session Unit}
    (hc : restful c = true) (hf : ∀ a, Follows (LifeTurn K L t) .idle (f a) fun _ _ => True) :
    Follows (LifeTurn K L t) .idle (ask c >>= f) fun _ _ => True :=
  follows_call (fun _ => .rests ht hc) hf

theorem life_sleep (ht : t.refreshes = true) {nanos : Nat} {p : Session Unit}
    (hp : Follows (LifeTurn K L t) .idle p fun _ _ => True) :
    Follows (LifeTurn K L t) .idle (sleep nanos >>= fun _ => p) fun _ _ => True := by
  show Follows (LifeTurn K L t) .idle (ask .now >>= fun now : Nat =>
    ask (.sleepUntil (now + nanos)) >>= fun _ => p) _
  exact life_rests ht rfl fun _ => life_rests ht rfl fun _ => hp

/-- a refresh, from the moment the lock is held -/
theorem life_locked (ht : t.refreshes = true) {st : SessionState}
    {f : Except SessionManagerError SessionState → Session Unit}
    (hf : ∀ r, Follows (LifeTurn K L t) .idle (f r) fun _ _ => True) :
    Follows (LifeTurn K L t) (.busy (.holding st))
      (caught (doRefresh K st) >>= fun res => settle res >>= fun _ => f res) fun _ _ => True :=
  @follows_locked K st LifePhase Unit (LifeTurn K L t) .busy .settled .idle .idle f _
    (fun _ _ _ h => .refreshes ht h) (fun st => .replaces ht st) (.ends ht) (fun e => .breaks ht e)
    (fun st => hf (.ok st)) fun e => hf (.error e)

theorem forceRefresh_life (s k : Nat) :
    Follows (LifeTurn K L (.force s k)) .idle (forceRefresh K) fun _ _ => True :=
  follows_call (.begins rfl) fun st => life_locked rfl fun r => by cases r <;> exact follows_pure trivial

theorem loop_life (s fuel : Nat) :
    Follows (LifeTurn K L (.loop s)) .idle (proactiveRefreshLoop K fuel) fun _ _ => True := by
  induction fuel with
  | zero => exact follows_cut
  | succ fuel ih =>
    refine life_rests rfl rfl fun seen => life_rests rfl rfl fun now => life_sleep rfl ?_
    refine follows_call (.begins rfl) fun st => life_locked rfl fun r => ?_
    match r with
    | .ok _ => exact ih
    | .error .sessionExpired => exact follows_pure trivial
    | .error (.keyring _) => exact life_sleep rfl ih
    | .error (.io _) => exact life_sleep rfl ih
    | .error (.json _) => exact life_sleep rfl ih
    | .error (.http _) => exact life_sleep rfl ih
    | .error (.noKeyring _) => exact life_sleep rfl ih

theorem fromLogin_life (s : Nat) : Follows (LifeTurn K L (.login s)) .idle
    (fromLogin (L s).creds (L s).expiresInSecs) fun r q => ∃ p, RefreshEnds r p ∧ q = .busy p := by
  refine follows_call (.times s) fun now => ?_
  exact Follows.map (g := LifePhase.busy) saves_follows (fun _ _ _ h => .saves h)
    fun r q hq => ⟨q, hq, rfl⟩

/-- the calls that only clear -/
theorem logout_clears : Only (fun c => clearing c = true) logout.run := by
  have hdelete : ∀ uid, Only (fun c => clearing c = true) (deleteKeyring uid).run := by
    intro uid
    refine ⟨rfl, fun a => ?_⟩
    match a with
    | .ok _ => trivial
    | .error .noEntry => trivial
    | .error (.other msg) => trivial
  have hremove : Only (fun c => clearing c = true) deleteSecretFile.run := by
    refine ⟨rfl, fun a => ?_⟩
    match a with
    | .ok _ => trivial
    | .error (.notFound msg) => trivial
    | .error (.other msg) => trivial
  have htruncate : Only (fun c => clearing c = true) truncateSessionFile.run := by
    refine ⟨rfl, fun there : Bool => ?_⟩
    cases there with
    | true =>
      refine ⟨rfl, fun a : Except IoError Unit => ?_⟩
      cases a <;> trivial
    | false => trivial
  refine ⟨rfl, fun st : SessionState => ?_⟩
  exact Only.bindE (hdelete st.uid) fun _ => Only.bindE hremove fun _ => htruncate

theorem logout_life (s : Nat) :
    Follows (LifeTurn K L (.logout s)) .idle logout fun _ q => q = .idle :=
  follows_only logout_clears fun _ h => .clears h

end

/-- every party makes its turns -/
theorem LifeRun.parties {K : Crates} {L : Nat → Login} {w₀ w : Machine} {H : Chronicle}
    (h : LifeRun K L w₀ H w) (t : Party) : ∃ q, Local (LifeTurn K L) (fun _ => .idle) H t q := by
  cases t with
  | login s =>
    obtain ⟨o, hrun⟩ := h.logins s
    obtain ⟨q, hpath, _⟩ := fromLogin_life s _ _ hrun
    exact ⟨q, hpath⟩
  | loop s =>
    obtain ⟨fuel, o, hrun⟩ := h.loops s
    obtain ⟨q, hpath, _⟩ := loop_life s fuel _ _ hrun
    exact ⟨q, hpath⟩
  | force s k =>
    obtain ⟨o, hrun⟩ := h.forces s k
    obtain ⟨q, hpath, _⟩ := forceRefresh_life s k _ _ hrun
    exact ⟨q, hpath⟩
  | logout s =>
    obtain ⟨o, hrun⟩ := h.logouts s
    obtain ⟨q, hpath, _⟩ := logout_life s _ _ hrun
    exact ⟨q, hpath⟩

/-! ## what is written -/

/-- where a session is persisted -/
inductive Slot where
  | keyring (uid : String)
  | file (path : StorePath)
  deriving DecidableEq

def Stores.at (s : Stores) : Slot → Option Text
  | .keyring uid => s.keyring uid
  | .file path => s.file path

def writtenDoc : SessionCall → Option (Slot × Json)
  | .setKeyring uid doc => some (.keyring uid, doc)
  | .writeFile path doc => some (.file path, doc)
  | _ => none

/-- the write of a login that lets it go on; the keyring is best effort -/
def placed : Event sessionHost → Option Slot
  | ⟨.setKeyring uid _, _⟩ => some (.keyring uid)
  | ⟨.writeFile path _, .ok _⟩ => some (.file path)
  | _ => none

/-- what has still to be written, of tokens that were got -/
def owes : RefreshPhase → List Slot
  | .answered st _ => [.keyring st.uid, .file .secret, .file .session]
  | .timed st _ _ => [.keyring st.uid, .file .secret, .file .session]
  | .keyed _ _ _ => [.file .secret, .file .session]
  | .secured _ _ _ => [.file .session]
  | .clocked _ _ _ _ => [.file .session]
  | .dated _ _ _ _ _ => [.file .session]
  | _ => []

/-- what has been written of them -/
def saved : RefreshPhase → List Slot
  | .keyed st _ _ => [.keyring st.uid]
  | .secured st _ _ => [.keyring st.uid, .file .secret]
  | .clocked st _ _ _ => [.keyring st.uid, .file .secret]
  | .dated st _ _ _ _ => [.keyring st.uid, .file .secret]
  | .ready st => [.keyring st.uid, .file .secret, .file .session]
  | _ => []

/-- whose session it is -/
def uidOf : RefreshPhase → Option String
  | .holding st => some st.uid
  | .rejected st => some st.uid
  | .answered st _ => some st.uid
  | .timed st _ _ => some st.uid
  | .keyed st _ _ => some st.uid
  | .secured st _ _ => some st.uid
  | .clocked st _ _ _ => some st.uid
  | .dated st _ _ _ _ => some st.uid
  | .ready st => some st.uid
  | .ended _ => none

/-- the uid that is read from a document -/
def docUid : Slot → Json → Option String
  | .file .session, doc => (SessionFile.ofJson doc).map fun sf => sf.uid
  | _, doc => (KeyringPayload.ofJson doc).map fun kp => kp.uid

section
variable {K : Crates} {p q : RefreshPhase} {e : Event sessionHost} {X : Slot} {doc : Json}
  {s s' : Stores}

/-- a refresh writes what it owes, in the name of its session -/
theorem RefreshTurn.written (h : RefreshTurn K p e q) (hw : writtenDoc e.call = some (X, doc)) :
    X ∈ owes p ∧ ∃ uid, uidOf p = some uid ∧ docUid X doc = some uid := by
  cases h with
  | keys st tok x a =>
    cases hw
    exact ⟨List.mem_cons_self, st.uid, rfl, rfl⟩
  | secures st tok x =>
    cases hw
    exact ⟨List.mem_cons_self, st.uid, rfl, rfl⟩
  | unsecured st tok x e =>
    cases hw
    exact ⟨List.mem_cons_self, st.uid, rfl, rfl⟩
  | saves st tok x u n =>
    cases hw
    refine ⟨List.mem_cons_self, st.uid, rfl, ?_⟩
    show (SessionFile.ofJson _).map _ = _
    rw [sessionDoc_read]
    rfl
  | unsaved st tok x u n e =>
    cases hw
    refine ⟨List.mem_cons_self, st.uid, rfl, ?_⟩
    show (SessionFile.ofJson _).map _ = _
    rw [sessionDoc_read]
    rfl
  | _ => cases hw

theorem RefreshTurn.uid (h : RefreshTurn K p e q) {uid : String} (hq : uidOf q = some uid) :
    uidOf p = some uid := by
  cases h with
  | unanswered => cases hq
  | unread => cases hq
  | clears => cases hq
  | unsecured => cases hq
  | unsaved => cases hq
  | _ => exact hq

/-- what has been written was written before, or just now -/
theorem RefreshTurn.saved (h : RefreshTurn K p e q) (hX : X ∈ saved q) :
    X ∈ saved p ∨ placed e = some X := by
  cases h with
  | keys st tok x a =>
    obtain rfl := List.mem_singleton.mp hX
    exact .inr rfl
  | secures st tok x =>
    rcases List.mem_cons.mp hX with rfl | hX
    · exact .inl List.mem_cons_self
    · obtain rfl := List.mem_singleton.mp hX
      exact .inr rfl
  | clocks => exact .inl hX
  | dates => exact .inl hX
  | saves st tok x u n =>
    rcases List.mem_cons.mp hX with rfl | hX
    · exact .inl List.mem_cons_self
    · rcases List.mem_cons.mp hX with rfl | hX
      · exact .inl (List.mem_cons_of_mem _ List.mem_cons_self)
      · obtain rfl := List.mem_singleton.mp hX
        exact .inr rfl
  | _ => cases hX

theorem Stores.setEntry_content {uid : String} {entry : Option Text}
    (hX : (s.setEntry uid entry).at X = some (some doc)) :
    (X = .keyring uid ∧ entry = some (some doc)) ∨ s.at X = some (some doc) := by
  cases X with
  | file path => exact .inr hX
  | keyring uid' =>
    have hX : (s.setEntry uid entry).keyring uid' = some (some doc) := hX
    by_cases huid : uid' = uid
    · subst huid
      rw [Stores.setEntry_keyring] at hX
      exact .inl ⟨rfl, hX⟩
    · rw [Stores.setEntry_other _ _ _ _ huid] at hX
      exact .inr hX

theorem Stores.setFile_content {path : StorePath} {content : Option Text}
    (hX : (s.setFile path content).at X = some (some doc)) :
    (X = .file path ∧ content = some (some doc)) ∨ s.at X = some (some doc) := by
  cases X with
  | keyring uid => exact .inr hX
  | file path' =>
    have hX : (s.setFile path content).file path' = some (some doc) := hX
    by_cases hpath : path' = path
    · subst hpath
      rw [Stores.setFile_file] at hX
      exact .inl ⟨rfl, hX⟩
    · rw [Stores.setFile_other _ _ _ _ hpath] at hX
      exact .inr hX

/-- a slot holds what it held before, or what is just written; a part of a document is none -/
theorem Serves.content (h : Serves s e s') (hX : s'.at X = some (some doc)) :
    s.at X = some (some doc) ∨ writtenDoc e.call = some (X, doc) := by
  cases h with
  | setKeyring uid doc' =>
    rcases Stores.setEntry_content hX with ⟨rfl, hentry⟩ | hX
    · cases hentry
      exact .inr rfl
    · exact .inl hX
  | deleteKeyring uid =>
    rcases Stores.setEntry_content hX with ⟨_, hentry⟩ | hX
    · cases hentry
    · exact .inl hX
  | writeFile path doc' =>
    rcases Stores.setFile_content hX with ⟨rfl, hcontent⟩ | hX
    · cases hcontent
      exact .inr rfl
    · exact .inl hX
  | writeFileFailed path doc' err hleft =>
    rcases Stores.setFile_content hX with ⟨rfl, hcontent⟩ | hX
    · rcases hleft with hleft | hleft | hleft
      · exact .inl (hleft.symm.trans hcontent)
      · cases hleft.symm.trans hcontent
      · cases hleft.symm.trans hcontent
        exact .inr rfl
    · exact .inl hX
  | truncateFile path =>
    rcases Stores.setFile_content hX with ⟨_, hcontent⟩ | hX
    · cases hcontent
    · exact .inl hX
  | truncateFileFailed path err hleft =>
    rcases Stores.setFile_content hX with ⟨rfl, hcontent⟩ | hX
    · rcases hleft with hleft | hleft
      · exact .inl (hleft.symm.trans hcontent)
      · cases hleft.symm.trans hcontent
    · exact .inl hX
  | removeFile path =>
    rcases Stores.setFile_content hX with ⟨_, hcontent⟩ | hX
    · cases hcontent
    · exact .inl hX
  | _ => exact .inl hX

end

end ProtonDrive
