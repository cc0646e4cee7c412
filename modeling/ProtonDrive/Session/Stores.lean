import Mathlib.Logic.Function.Basic
import ProtonDrive.Session.Steps

/-!
# The stores of a session

* `Stores`               what the keyring and the two files hold;
* `Serves`               the answers of the stores to a call, and what they hold after it.  A write to the
                         keyring that fails has changed nothing; one to a file may have left the old
                         document, a part of the new one or all of it;
* `Stores.resumes`       the session file and the secret that `fromKeyring` makes of the stores
                         (`fromKeyring_ok`, `fromKeyring_runs`).
-/

set_option linter.unusedVariables false

namespace ProtonDrive
open Encoding Effects Api Paths

structure Stores where
  keyring : String → Option Text
  file : StorePath → Option Text

namespace Stores

def setEntry (s : Stores) (uid : String) (entry : Option Text) : Stores :=
  { s with keyring := Function.update s.keyring uid entry }

def setFile (s : Stores) (path : StorePath) (content : Option Text) : Stores :=
  { s with file := Function.update s.file path content }

section
variable (s : Stores) (uid uid' : String) (path path' : StorePath) (entry content : Option Text)

@[simp] theorem setEntry_file : (s.setEntry uid entry).file = s.file := rfl

@[simp] theorem setFile_keyring : (s.setFile path content).keyring = s.keyring := rfl

@[simp] theorem setEntry_keyring : (s.setEntry uid entry).keyring uid = entry :=
  Function.update_self ..

@[simp] theorem setFile_file : (s.setFile path content).file path = content :=
  Function.update_self ..

theorem setEntry_other (h : uid' ≠ uid) : (s.setEntry uid entry).keyring uid' = s.keyring uid' :=
  Function.update_of_ne h ..

theorem setFile_other (h : path' ≠ path) : (s.setFile path content).file path' = s.file path' :=
  Function.update_of_ne h ..

end

/-- the document of a file, read by `dec` -/
def readFile {α : Type} (s : Stores) (path : StorePath) (dec : Json → Option α) : Option α :=
  match s.file path with
  | some text => text.bind dec
  | none => none

theorem readFile_setFile {α : Type} {s : Stores} {path : StorePath} {dec : Json → Option α}
    {doc : Json} : (s.setFile path (some (some doc))).readFile path dec = dec doc := by
  unfold readFile
  rw [setFile_file]
  rfl

theorem readFile_setFile_other {α : Type} {s : Stores} {path path' : StorePath}
    {dec : Json → Option α} {content : Option Text} (h : path' ≠ path) :
    (s.setFile path content).readFile path' dec = s.readFile path' dec := by
  unfold readFile
  rw [setFile_other _ _ _ _ h]

/-- the secret of `uid`: an entry of the keyring hides the file -/
def secretOf (s : Stores) (uid : String) : Option KeyringPayload :=
  match s.keyring uid with
  | some text => text.bind KeyringPayload.ofJson
  | none => (s.readFile .secret KeyringPayload.ofJson).filter fun payload => payload.uid = uid

/-- what `fromKeyring` makes of the stores if they can be read -/
def resumes (s : Stores) : Option (SessionFile × KeyringPayload) :=
  match s.readFile .session SessionFile.ofJson with
  | some sf => (s.secretOf sf.uid).map fun kp => (sf, kp)
  | none => none

theorem resumes_eq_some {s : Stores} {sf : SessionFile} {kp : KeyringPayload} :
    s.resumes = some (sf, kp) ↔
      s.readFile .session SessionFile.ofJson = some sf ∧ s.secretOf sf.uid = some kp := by
  unfold resumes
  cases hsf : s.readFile .session SessionFile.ofJson with
  | none => simp
  | some sf' =>
    simp only [Option.map_eq_some_iff, Prod.mk.injEq, Option.some.injEq]
    constructor
    · rintro ⟨kp', hkp, rfl, rfl⟩
      exact ⟨rfl, hkp⟩
    · rintro ⟨rfl, hkp⟩
      exact ⟨kp, hkp, rfl, rfl⟩

end Stores

/-- what a session has written is read back -/
theorem secretDoc_read (uid refreshToken keyPassword : String) :
    KeyringPayload.ofJson (secretDoc uid refreshToken keyPassword) =
      some { uid, refreshToken, keyPassword } := rfl

theorem sessionDoc_read (uid accessToken : String) (nowUnix now expiresAt : Nat) :
    SessionFile.ofJson (sessionDoc uid accessToken nowUnix now expiresAt) =
      some { uid, accessToken, expiresAtUnix := expiresAtUnix nowUnix now expiresAt,
             appVersion := defaultAppVersion, baseUrl := defaultBaseUrl } := by
  refine SessionFile.ofJson_toJson _ (Nat.lt_of_le_of_lt (Nat.min_le_right _ _) ?_)
  decide

/-- the calls that the stores do not answer -/
def leavesStores : SessionCall → Bool
  | .setKeyring _ _ => false
  | .getKeyring _ => false
  | .deleteKeyring _ => false
  | .writeFile _ _ => false
  | .truncateFile _ => false
  | .readFile _ => false
  | .fileExists _ => false
  | .removeFile _ => false
  | _ => true

inductive Serves : Stores → Event sessionHost → Stores → Prop
  | setKeyring (s uid doc) : Serves s ⟨.setKeyring uid doc, .ok ()⟩ (s.setEntry uid (some (some doc)))
  | setKeyringFailed (s uid doc e) : Serves s ⟨.setKeyring uid doc, .error e⟩ s
  | getKeyring {s uid text} (h : s.keyring uid = some text) : Serves s ⟨.getKeyring uid, .ok text⟩ s
  | getKeyringNone {s uid} (h : s.keyring uid = none) :
      Serves s ⟨.getKeyring uid, .error .noEntry⟩ s
  | getKeyringFailed (s uid msg) : Serves s ⟨.getKeyring uid, .error (.other msg)⟩ s
  | deleteKeyring (s uid) : Serves s ⟨.deleteKeyring uid, .ok ()⟩ (s.setEntry uid none)
  | deleteKeyringNone {s uid} (h : s.keyring uid = none) :
      Serves s ⟨.deleteKeyring uid, .error .noEntry⟩ s
  | deleteKeyringFailed (s uid msg) : Serves s ⟨.deleteKeyring uid, .error (.other msg)⟩ s
  | writeFile (s path doc) : Serves s ⟨.writeFile path doc, .ok ()⟩ (s.setFile path (some (some doc)))
  | writeFileFailed (s path doc e) {left}
      (h : left = s.file path ∨ left = some none ∨ left = some (some doc)) :
      Serves s ⟨.writeFile path doc, .error e⟩ (s.setFile path left)
  | truncateFile (s path) : Serves s ⟨.truncateFile path, .ok ()⟩ (s.setFile path (some none))
  | truncateFileFailed (s path e) {left} (h : left = s.file path ∨ left = some none) :
      Serves s ⟨.truncateFile path, .error e⟩ (s.setFile path left)
  | readFile {s path text} (h : s.file path = some text) : Serves s ⟨.readFile path, .ok text⟩ s
  | readFileFailed (s path e) : Serves s ⟨.readFile path, .error e⟩ s
  | fileExists (s path) : Serves s ⟨.fileExists path, (s.file path).isSome⟩ s
  | removeFile (s path) : Serves s ⟨.removeFile path, .ok ()⟩ (s.setFile path none)
  | removeFileNone {s path} (msg) (h : s.file path = none) :
      Serves s ⟨.removeFile path, .error (.notFound msg)⟩ s
  | removeFileFailed (s path msg) : Serves s ⟨.removeFile path, .error (.other msg)⟩ s
  | other (s) {e} (h : leavesStores e.call = true) : Serves s e s

/-! ## resuming -/

section
variable {tr : Trace sessionHost} {s s' : Stores} {uid : String}

theorem Serves.other_inv {e : Event sessionHost} (h : Serves s e s') (he : leavesStores e.call = true) :
    s' = s := by
  cases h with
  | other => rfl
  | _ => cases he

theorem Serves.readFile_inv {path : StorePath} {text : Text}
    (h : Serves s ⟨.readFile path, .ok text⟩ s') : s' = s ∧ s.file path = some text := by
  cases h with
  | readFile hfile => exact ⟨rfl, hfile⟩
  | other h => cases h

theorem Serves.getKeyring_inv {text : Text} (h : Serves s ⟨.getKeyring uid, .ok text⟩ s') :
    s' = s ∧ s.keyring uid = some text := by
  cases h with
  | getKeyring hentry => exact ⟨rfl, hentry⟩
  | other h => cases h

theorem Serves.getKeyringNone_inv (h : Serves s ⟨.getKeyring uid, .error .noEntry⟩ s') :
    s' = s ∧ s.keyring uid = none := by
  cases h with
  | getKeyringNone hentry => exact ⟨rfl, hentry⟩
  | other h => cases h

theorem Serves.fileExists_inv {path : StorePath} {there : Bool}
    (h : Serves s ⟨.fileExists path, there⟩ s') : s' = s := by
  cases h with
  | fileExists => rfl
  | other h => cases h

theorem loadSessionFile_ok {sf : SessionFile} (h : Runs loadSessionFile.run tr (.done (.ok sf))) :
    ∃ text, tr = [⟨.readFile .session, .ok text⟩] ∧ text.bind SessionFile.ofJson = some sf := by
  obtain ⟨read, t₁, u₁, rfl, h₁, k₁⟩ := h.bindE_ok
  obtain ⟨bytes, t₂, u₂, rfl, h₂, k₂⟩ := k₁.bindE_ok
  obtain rfl := ask_ok h₁
  obtain ⟨rfl, rfl⟩ := orFail_ok h₂
  obtain ⟨rfl, hsf⟩ := readText_ok k₂
  exact ⟨bytes, rfl, hsf⟩

theorem loadSecretFile_ok {kp : KeyringPayload}
    (h : Runs (loadSecretFile uid).run tr (.done (.ok kp))) :
    ∃ text, tr = [⟨.fileExists .secret, true⟩, ⟨.readFile .secret, .ok text⟩] ∧
      text.bind KeyringPayload.ofJson = some kp ∧ kp.uid = uid := by
  obtain ⟨there, t₁, u₁, rfl, h₁, k₁⟩ := h.bindE_ok
  obtain rfl := ask_ok h₁
  match there, k₁ with
  | false, k₁ => obtain ⟨_, k₁ | k₁⟩ := Runs.ret_inv k₁ <;> cases k₁
  | true, k₁ =>
    obtain ⟨read, t₂, u₂, rfl, h₂, k₂⟩ := Runs.bindE_ok k₁
    obtain ⟨raw, t₃, u₃, rfl, h₃, k₃⟩ := k₂.bindE_ok
    obtain ⟨payload, t₄, u₄, rfl, h₄, k₄⟩ := k₃.bindE_ok
    obtain rfl := ask_ok h₂
    obtain ⟨rfl, rfl⟩ := orFail_ok h₃
    obtain ⟨rfl, hpayload⟩ := readText_ok h₄
    by_cases huid : payload.uid = uid
    · rw [if_neg (not_not_intro huid)] at k₄
      obtain ⟨rfl, rfl⟩ := done_inv k₄
      exact ⟨raw, rfl, hpayload, huid⟩
    · rw [if_pos huid] at k₄
      obtain ⟨_, k₄ | k₄⟩ := Runs.ret_inv k₄ <;> cases k₄

/-- what `loadKeyring` makes of an entry -/
def payloadOf (raw : Text) : Except SessionManagerError KeyringPayload :=
  match raw.bind KeyringPayload.ofJson with
  | some kp => .ok kp
  | none => .error (.json "KeyringPayload")

/-- `loadSecret` from the answer of `loadKeyring` on -/
def secretOrFile (uid : String) : Except SessionManagerError KeyringPayload → Session KeyringPayload
  | .ok kp => pure kp
  | .error (.noKeyring _) => loadSecretFile uid
  | .error e => throw e

/-- what it makes of the answer of the keyring -/
def keyringResult (uid : String) : Except KeyringError Text → Except SessionManagerError KeyringPayload
  | .ok raw => payloadOf raw
  | .error .noEntry => .error (.noKeyring uid)
  | .error (.other msg) => .error (.keyring msg)

theorem loadKeyring_done {r : Except SessionManagerError KeyringPayload}
    (h : Runs (loadKeyring uid).run tr (.done r)) :
    ∃ got, tr = [⟨.getKeyring uid, got⟩] ∧ r = keyringResult uid got := by
  rcases Runs.call_inv h with ⟨_, h⟩ | ⟨got, t, rfl, k⟩
  · cases h
  · refine ⟨got, ?_⟩
    rw [List.cons.injEq, and_iff_right rfl]
    match got, k with
    | .ok raw, k =>
      have k : Runs (readText "KeyringPayload" KeyringPayload.ofJson raw).run t (.done r) := k
      unfold readText at k
      show t = _ ∧ r = payloadOf raw
      unfold payloadOf
      cases hkp : raw.bind KeyringPayload.ofJson with
      | some kp =>
        rw [hkp] at k
        obtain ⟨rfl, k | k⟩ := Runs.ret_inv k <;> cases k
        exact ⟨rfl, rfl⟩
      | none =>
        rw [hkp] at k
        obtain ⟨rfl, k | k⟩ := Runs.ret_inv k <;> cases k
        exact ⟨rfl, rfl⟩
    | .error .noEntry, k =>
      obtain ⟨rfl, k | k⟩ := Runs.ret_inv k <;> cases k
      exact ⟨rfl, rfl⟩
    | .error (.other msg), k =>
      obtain ⟨rfl, k | k⟩ := Runs.ret_inv k <;> cases k
      exact ⟨rfl, rfl⟩

theorem loadSecret_ok {kp : KeyringPayload} (h : Runs (loadSecret uid).run tr (.done (.ok kp)))
    (hs : Path Serves s tr s') : s' = s ∧ s.secretOf uid = some kp := by
  rcases caught_inv h with ⟨r, t, u, rfl, h₁, k⟩ | ⟨o₁, ho, _⟩
  · obtain ⟨got, rfl, rfl⟩ := loadKeyring_done h₁
    cases hs with
    | cons hget hrest =>
      match got, k with
      | .ok raw, k =>
        obtain ⟨rfl, hentry⟩ := hget.getKeyring_inv
        have k : Runs (secretOrFile uid (payloadOf raw)).run u (.done (.ok kp)) := k
        unfold payloadOf at k
        unfold Stores.secretOf
        rw [hentry]
        show _ ∧ raw.bind KeyringPayload.ofJson = some kp
        cases hkp : raw.bind KeyringPayload.ofJson with
        | some kp' =>
          rw [hkp] at k
          obtain ⟨rfl, rfl⟩ := done_inv k
          exact ⟨hrest.nil_inv, rfl⟩
        | none =>
          rw [hkp] at k
          obtain ⟨_, k | k⟩ := Runs.ret_inv k <;> cases k
      | .error .noEntry, k =>
        obtain ⟨rfl, hentry⟩ := hget.getKeyringNone_inv
        have k : Runs (loadSecretFile uid).run u (.done (.ok kp)) := k
        obtain ⟨text, rfl, hkp, huid⟩ := loadSecretFile_ok k
        cases hrest with
        | cons hexists hrest =>
          obtain rfl := hexists.fileExists_inv
          obtain ⟨rfl, hfile⟩ := hrest.one_inv.readFile_inv
          refine ⟨rfl, ?_⟩
          unfold Stores.secretOf Stores.readFile
          rw [hentry, hfile]
          show (text.bind KeyringPayload.ofJson).filter _ = some kp
          rw [hkp, Option.filter_some, if_pos (by simpa using huid)]
      | .error (.other msg), k => obtain ⟨_, k | k⟩ := Runs.ret_inv k <;> cases k
  · rcases ho.eq with ⟨_, ho⟩ | ⟨_, ho⟩ <;> cases ho

/-- a session that was resumed is the one the stores hold -/
theorem fromKeyring_ok {st : SessionState} (h : Runs fromKeyring.run tr (.done (.ok st)))
    (hs : Path Serves s tr s') :
    s' = s ∧ ∃ sf kp, s.resumes = some (sf, kp) ∧ st.uid = sf.uid ∧
      st.accessToken = sf.accessToken ∧ st.refreshToken = kp.refreshToken ∧
      st.keyPassword = kp.keyPassword := by
  obtain ⟨sf, t₁, u₁, rfl, h₁, k₁⟩ := h.bindE_ok
  obtain ⟨kp, t₂, u₂, rfl, h₂, k₂⟩ := k₁.bindE_ok
  obtain ⟨nowUnix, t₃, u₃, rfl, h₃, k₃⟩ := k₂.bindE_ok
  obtain ⟨now, t₄, u₄, rfl, h₄, k₄⟩ := k₃.bindE_ok
  obtain ⟨rfl, rfl⟩ := done_inv k₄
  obtain rfl := ask_ok h₃
  obtain rfl := ask_ok h₄
  obtain ⟨text, rfl, hsf⟩ := loadSessionFile_ok h₁
  cases hs with
  | cons hread hs₁ =>
    obtain ⟨rfl, hfile⟩ := hread.readFile_inv
    have hs₁ : Path Serves _ (t₂ ++ [⟨.unixNow, nowUnix⟩, ⟨.now, now⟩]) s' := hs₁
    obtain ⟨s₂, hload, hs₂⟩ := hs₁.append_inv
    obtain ⟨rfl, hsecret⟩ := loadSecret_ok h₂ hload
    cases hs₂ with
    | cons hunix hs₃ =>
      obtain rfl := hunix.other_inv rfl
      obtain rfl := hs₃.one_inv.other_inv rfl
      refine ⟨rfl, sf, kp, Stores.resumes_eq_some.mpr ⟨?_, hsecret⟩, rfl, rfl, rfl, rfl⟩
      unfold Stores.readFile
      rw [hfile]
      exact hsf

theorem Stores.readFile_eq_some {α : Type} {path : StorePath} {dec : Json → Option α} {a : α}
    (h : s.readFile path dec = some a) :
    ∃ text, s.file path = some text ∧ text.bind dec = some a := by
  unfold Stores.readFile at h
  cases hfile : s.file path with
  | none =>
    rw [hfile] at h
    cases h
  | some text =>
    rw [hfile] at h
    exact ⟨text, rfl, h⟩

theorem readText_runs {α : Type} {type : String} {dec : Json → Option α} {text : Text} {a : α}
    (h : text.bind dec = some a) : Runs (readText type dec text).run [] (.done (.ok a)) := by
  unfold readText
  rw [h]
  exact .ret _

theorem loadSecret_runs {kp : KeyringPayload} (h : s.secretOf uid = some kp) :
    ∃ tr, Runs (loadSecret uid).run tr (.done (.ok kp)) ∧ Path Serves s tr s := by
  unfold Stores.secretOf at h
  cases hentry : s.keyring uid with
  | some text =>
    rw [hentry] at h
    have hload : Runs (loadKeyring uid).run [⟨.getKeyring uid, .ok text⟩] (.done (.ok kp)) :=
      .call (readText_runs h)
    exact ⟨_, Runs.bindE (Runs.bind hload (.ret _)) (.ret _), .one (.getKeyring hentry)⟩
  | none =>
    rw [hentry] at h
    obtain ⟨hread, huid⟩ := Option.filter_eq_some_iff.mp h
    have huid : kp.uid = uid := of_decide_eq_true huid
    obtain ⟨text, hfile, hkp⟩ := Stores.readFile_eq_some hread
    have hload : Runs (loadKeyring uid).run [⟨.getKeyring uid, .error .noEntry⟩]
        (.done (.error (.noKeyring uid))) := .call (.ret _)
    have hreturn : Runs (if kp.uid ≠ uid then throw (.noKeyring uid) else pure kp :
        Session KeyringPayload).run [] (.done (.ok kp)) := by
      rw [if_neg (not_not_intro huid)]
      exact .ret _
    have hsecret : Runs (loadSecretFile uid).run
        [⟨.fileExists .secret, true⟩, ⟨.readFile .secret, .ok text⟩] (.done (.ok kp)) :=
      .call (.call (Runs.bindE_none (.ret _) (Runs.bindE_none (readText_runs hkp) hreturn)))
    have hthere : (s.file .secret).isSome = true := by rw [hfile]; rfl
    refine ⟨_, Runs.bindE (Runs.bind hload (.ret _)) hsecret, .cons (.getKeyringNone hentry)
      (.cons ?_ (.one (.readFile hfile)))⟩
    have hexists := Serves.fileExists s .secret
    rw [hthere] at hexists
    exact hexists

/-- stores that hold a session can be resumed from -/
theorem fromKeyring_runs {sf : SessionFile} {kp : KeyringPayload} (h : s.resumes = some (sf, kp)) :
    ∃ tr st, Runs fromKeyring.run tr (.done (.ok st)) ∧ Path Serves s tr s ∧
      st.refreshToken = kp.refreshToken := by
  obtain ⟨hsession, hsecret⟩ := Stores.resumes_eq_some.mp h
  obtain ⟨text, hfile, hsf⟩ := Stores.readFile_eq_some hsession
  obtain ⟨t, hload, hs⟩ := loadSecret_runs hsecret
  have hsession : Runs loadSessionFile.run [⟨.readFile .session, .ok text⟩] (.done (.ok sf)) :=
    .call (readText_runs hsf)
  refine ⟨_, _, Runs.bindE hsession (Runs.bindE hload (.call (a := (0 : Nat))
    (.call (a := (0 : Nat)) (.ret _)))), .cons (.readFile hfile) (hs.append
      (.cons (.other s rfl) (.one (.other s rfl)))), rfl⟩

end

end ProtonDrive
