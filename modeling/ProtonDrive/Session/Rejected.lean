import ProtonDrive.Session.Stores
import ProtonDrive.Core.Scripted

/-!
# A session whose refresh was rejected

A refresh that the server rejects deletes the entry of the keyring, and leaves the secret file and
`session.json` as they are.

* `rejected_run`         the calls of such a refresh;
* `Cleared`              stores from which, once the entry is deleted, nothing can be resumed;
* `rejected_not_resumed` after a rejected refresh `fromKeyring` fails exactly if the stores were `Cleared`;
* `rejectedLogin_resumes`
                         after a login they are not.
-/

set_option linter.unusedVariables false

namespace ProtonDrive
open Encoding Effects Api Paths

/-- the keyring has no entry for `uid` after this answer to its deletion -/
def Deleted (a : Except KeyringError Unit) : Prop := a = .ok () ∨ a = .error .noEntry

/-- nothing is left to resume: `session.json` cannot be read; or the entry of the uid it names is deleted,
and the secret file has no payload of this uid; or the entry of this uid stays, and is no payload -/
def Cleared (s : Stores) (uid : String) (a : Except KeyringError Unit) : Prop :=
  ∀ sf, s.readFile .session SessionFile.ofJson = some sf →
    (sf.uid = uid ∧ Deleted a ∧ ∀ kp, s.readFile .secret KeyringPayload.ofJson = some kp →
      kp.uid ≠ uid) ∨
    (¬ (sf.uid = uid ∧ Deleted a) ∧ s.secretOf sf.uid = none)

section
variable {K : Crates} {tr : Trace sessionHost} {s s' : Stores} {uid : String} {st : SessionState}
  {resp : JsonResponse} {a : Except KeyringError Unit}

/-- the event of a refresh that is answered -/
def answeredWith (st : SessionState) (resp : JsonResponse) : Event sessionHost :=
  ⟨.requestJson (refreshRequest st), .ok resp⟩

/-- a refresh that is over and was rejected -/
theorem rejected_run {r : Except SessionManagerError SessionState}
    (h : Runs (doRefresh K st).run (answeredWith st resp :: tr) (.done r))
    (hrejects : Rejects resp) :
    r = .error .sessionExpired ∧ ∃ a, tr = [⟨.deleteKeyring st.uid, a⟩] := by
  obtain ⟨q, hpath, hends⟩ := doRefresh_path h
  cases hpath with
  | cons hturn hrest =>
    cases hturn with
    | unread _ hstatus => exact absurd hrejects hstatus
    | answers _ hrotates => exact absurd hrejects hrotates.1
    | rejects =>
      cases hrest with
      | nil =>
        match r with
        | .ok st' => cases hends.ok _ rfl
        | .error e => cases hends.error _ rfl
      | cons hclear hrest =>
        cases hclear with
        | clears _ a =>
          cases hrest with
          | nil =>
            match r with
            | .ok st' => cases hends.ok _ rfl
            | .error e =>
              cases hends.error _ rfl
              exact ⟨rfl, a, rfl⟩
          | cons hturn => cases hturn

theorem Serves.deleteKeyring_inv (h : Serves s ⟨.deleteKeyring uid, a⟩ s') :
    (Deleted a ∧ s' = s.setEntry uid none) ∨ (¬ Deleted a ∧ s' = s) := by
  cases h with
  | deleteKeyring => exact .inl ⟨.inl rfl, rfl⟩
  | deleteKeyringNone hnone =>
    refine .inl ⟨.inr rfl, ?_⟩
    unfold Stores.setEntry
    rw [← hnone, Function.update_eq_self]
  | deleteKeyringFailed =>
    refine .inr ⟨?_, rfl⟩
    rintro (h | h) <;> cases h
  | other h => cases h

theorem Stores.resumes_eq_none :
    s.resumes = none ↔ ∀ sf, s.readFile .session SessionFile.ofJson = some sf →
      s.secretOf sf.uid = none := by
  unfold Stores.resumes
  cases s.readFile .session SessionFile.ofJson with
  | none => simp
  | some sf => simp

theorem secretOf_deleted :
    (s.setEntry uid none).secretOf uid = none ↔
      ∀ kp, s.readFile .secret KeyringPayload.ofJson = some kp → kp.uid ≠ uid := by
  unfold Stores.secretOf
  rw [Stores.setEntry_keyring]
  show (s.readFile .secret KeyringPayload.ofJson).filter _ = none ↔ _
  rw [Option.filter_eq_none_iff]
  constructor
  · intro h kp hkp
    simpa using h kp hkp
  · intro h kp hkp
    simpa using h kp hkp

theorem cleared_iff (h : Serves s ⟨.deleteKeyring uid, a⟩ s') : s'.resumes = none ↔ Cleared s uid a := by
  rw [Stores.resumes_eq_none]
  unfold Cleared
  rcases h.deleteKeyring_inv with ⟨hdel, rfl⟩ | ⟨hdel, rfl⟩
  · have hfile : (s.setEntry uid none).readFile .session SessionFile.ofJson =
        s.readFile .session SessionFile.ofJson := rfl
    rw [hfile]
    refine forall_congr' fun sf => imp_congr_right fun hsf => ?_
    by_cases huid : sf.uid = uid
    · rw [huid, secretOf_deleted]
      simp [hdel]
    · have hother : (s.setEntry uid none).secretOf sf.uid = s.secretOf sf.uid := by
        unfold Stores.secretOf
        rw [Stores.setEntry_other _ _ _ _ huid]
        rfl
      rw [hother]
      simp [huid]
  · simp [hdel]

/-- after a refresh that was rejected, every attempt to resume fails exactly if the stores were cleared but
for the entry that the refresh deletes -/
theorem rejected_not_resumed {r : Except SessionManagerError SessionState}
    (h : Runs (doRefresh K st).run (answeredWith st resp :: tr) (.done r)) (hrejects : Rejects resp)
    (hs : Path Serves s (answeredWith st resp :: tr) s') :
    r = .error .sessionExpired ∧ ∃ a, tr = [⟨.deleteKeyring st.uid, a⟩] ∧
      ((∀ tr' r' s'', Runs fromKeyring.run tr' (.done r') → Path Serves s' tr' s'' →
        ∃ e, r' = .error e) ↔ Cleared s st.uid a) := by
  obtain ⟨hr, a, rfl⟩ := rejected_run h hrejects
  refine ⟨hr, a, rfl, ?_⟩
  cases hs with
  | cons hsend hs =>
    obtain rfl := hsend.other_inv rfl
    rw [← cleared_iff hs.one_inv]
    constructor
    · intro hfails
      cases hresumes : s'.resumes with
      | none => rfl
      | some found =>
        obtain ⟨sf, kp⟩ := found
        obtain ⟨tr', st', hrun, hpath, _⟩ := fromKeyring_runs hresumes
        obtain ⟨e, he⟩ := hfails _ _ _ hrun hpath
        cases he
    · intro hnone tr' r' s'' hrun hpath
      match r', hrun with
      | .error e, _ => exact ⟨e, rfl⟩
      | .ok st', hrun =>
        obtain ⟨_, sf, kp, hresumes, _⟩ := fromKeyring_ok hrun hpath
        rw [hnone] at hresumes
        cases hresumes

end

/-! ## after a login -/

def smallState : SessionState where
  uid := "u"
  accessToken := "a0"
  refreshToken := "r0"
  keyPassword := "kp"
  expiresAt := 1800 * NANOS_PER_SEC

/-- the stores a login leaves, with or without the secret file -/
def smallStores (secret : Option Text) : Stores where
  keyring uid := if uid = "u" then some (some (secretDoc "u" "r0" "kp")) else none
  file
    | .session => some (some (sessionDoc "u" "a0" 0 0 (1800 * NANOS_PER_SEC)))
    | .secret => secret

def unprocessable : JsonResponse := { status := 422, headers := [], body := [] }

/-- a refresh that is rejected, and whose keyring entry can be deleted -/
def rejectedTrace : Trace sessionHost :=
  [answeredWith smallState unprocessable, ⟨.deleteKeyring "u", .ok ()⟩]

theorem rejectedTrace_runs :
    Runs (doRefresh (smallCrates []) smallState).run rejectedTrace (.done (.error .sessionExpired)) :=
  .call (.call (.ret _))

theorem rejectedTrace_serves (secret : Option Text) :
    Path Serves (smallStores secret) rejectedTrace ((smallStores secret).setEntry "u" none) :=
  .cons (.other _ rfl) (.one (.deleteKeyring _ _))

/-- what a login has written, after the refresh was rejected -/
def rejectedStores : Stores :=
  (smallStores (some (some (secretDoc "u" "r0" "kp")))).setEntry "u" none

theorem rejectedStores_resumes : ∃ sf kp, rejectedStores.resumes = some (sf, kp) ∧
    kp.refreshToken = smallState.refreshToken := by
  refine ⟨_, ⟨"u", "r0", "kp"⟩, Stores.resumes_eq_some.mpr
    ⟨sessionDoc_read "u" "a0" 0 0 smallState.expiresAt, ?_⟩, rfl⟩
  unfold Stores.secretOf rejectedStores
  rw [Stores.setEntry_keyring]
  rfl

/-- the secret file of the login is left, and the rejected token is resumed from it -/
theorem rejectedLogin_resumes :
    Runs (doRefresh (smallCrates []) smallState).run rejectedTrace
        (.done (.error .sessionExpired)) ∧
      Path Serves (smallStores (some (some (secretDoc "u" "r0" "kp")))) rejectedTrace
        rejectedStores ∧
      ∃ tr' st', Runs fromKeyring.run tr' (.done (.ok st')) ∧
        Path Serves rejectedStores tr' rejectedStores ∧
        st'.refreshToken = smallState.refreshToken := by
  obtain ⟨sf, kp, hresumes, htoken⟩ := rejectedStores_resumes
  obtain ⟨tr', st', hrun, hpath, hst⟩ := fromKeyring_runs hresumes
  exact ⟨rejectedTrace_runs, rejectedTrace_serves _, tr', st', hrun, hpath, hst.trans htoken⟩

/-- where the secret file is missing -/
theorem rejectedKeyring_fails : ¬∃ (tr' : Trace sessionHost) (st' : SessionState) (s'' : Stores),
    Runs fromKeyring.run tr' (.done (.ok st')) ∧
      Path Serves ((smallStores none).setEntry "u" none) tr' s'' := by
  obtain ⟨_, a, htrace, hiff⟩ :=
    rejected_not_resumed rejectedTrace_runs (.inr rfl) (rejectedTrace_serves none)
  have hfails := hiff.mpr fun sf hsf => by
    cases htrace
    have hsession : (smallStores none).readFile .session SessionFile.ofJson = _ :=
      sessionDoc_read "u" "a0" 0 0 smallState.expiresAt
    rw [hsession] at hsf
    cases hsf
    exact .inl ⟨rfl, .inl rfl, nofun⟩
  intro ⟨tr', st', s'', hrun, hpath⟩
  obtain ⟨e, he⟩ := hfails tr' (.ok st') s'' hrun hpath
  cases he

end ProtonDrive
