import ProtonDrive.Session.Lifetimes
import ProtonDrive.Session.Timer

/-!
# Sessions that are over

* `DeadSessions`         what is wanted of a history: a session that was logged out writes nothing more, and
                         cannot be resumed; what a login has persisted belongs to it, or to a later one;
* `InTime`               no refresh of a session that is over has new tokens to write, and no login leaves
                         a payload in the keyring that is not its own;
* `retired_dead`         in a run that is `InTime` the sessions are dead;
* `detached_loop_writes` in others they are not: the loop of a session outlives its logout.
-/

set_option linter.unusedVariables false

namespace ProtonDrive
open Encoding Effects Api Paths

/-! ## what is wanted -/

/-- a party of the session has written the document there -/
def Wrote (H : Chronicle) (s : Nat) (X : Slot) (doc : Json) : Prop :=
  ∃ t e, (t, e) ∈ H ∧ t.session = s ∧ writtenDoc e.call = some (X, doc)

/-- no later login has begun -/
def LastLogin (s : Nat) (H : Chronicle) : Prop := ∀ s' e, (.login s', e) ∈ H → s' ≤ s

/-- where a login persists its session -/
def Login.slots (l : Login) : List Slot := [.keyring l.creds.uid, .file .secret, .file .session]

structure DeadSessions (L : Nat → Login) (w₀ : Machine) (H : Chronicle) : Prop where
  silent : ∀ pre t e post, H = pre ++ (t, e) :: post → LoggedOut t.session pre →
    writtenDoc e.call = none
  fails : ∀ s pre post w, H = pre ++ post → Path MachineStep w₀ pre w → LoggedOut s pre →
    LastLogin s pre → ∀ tr r stores, Runs fromKeyring.run tr (.done r) → Path Serves w.stores tr stores →
      ∃ err, r = .error err
  current : ∀ s pre post w, H = pre ++ post → Path MachineStep w₀ pre w → LoggedIn L w₀ s pre →
    ∀ X ∈ (L s).slots, ∀ doc uid, w.stores.at X = some (some doc) → docUid X doc = some uid →
      ∃ s', s ≤ s' ∧ Wrote pre s' X doc ∧ (LastLogin s pre → s' = s ∧ uid = (L s).creds.uid)

/-! ## when it is so -/

section
variable (K : Crates) (L : Nat → Login) (w₀ : Machine) (H : Chronicle)

/-- after `pre` the party has come to this phase -/
def At (pre : Chronicle) (t : Party) (q : LifePhase) : Prop :=
  Local (LifeTurn K L) (fun _ => .idle) pre t q

structure InTime : Prop where
  /-- what a refresh has still to write was not written by a later login that succeeds -/
  superseded : ∀ pre post t p, H = pre ++ post → t.refreshes = true → At K L pre t (.busy p) →
    ∀ s e, t.session < s → LoggedIn L w₀ s H → (.login s, e) ∈ pre →
      ∀ X ∈ owes p, placed e ≠ some X
  /-- a refresh has nothing to write once its session was logged out -/
  loggedOut : ∀ pre post t p, H = pre ++ post → t.refreshes = true → At K L pre t (.busy p) →
    LoggedOut t.session pre → owes p = []
  /-- a login that succeeds, but could not write the keyring, has found no payload there -/
  keyring : ∀ pre s uid doc err post w, H = pre ++ (.login s, ⟨.setKeyring uid doc, .error err⟩) :: post →
    Path MachineStep w₀ pre w → LoggedIn L w₀ s H → w.stores.entryOf uid = none

end

/-! ## parties that write -/

/-- the uid that a party writes -/
def Party.uid (L : Nat → Login) (w₀ : Machine) : Party → String
  | .login s => (L s).creds.uid
  | t => (w₀.cells t.session).st.uid

/-- the parties that save tokens -/
inductive Party.Saves : Party → Prop
  | login (s) : Party.Saves (.login s)
  | refresh {t : Party} (ht : t.refreshes = true) : Party.Saves t

section
variable {K : Crates} {L : Nat → Login} {w₀ w w' : Machine} {H pre post : Chronicle} {t : Party}
  {q q' : LifePhase} {e : Event sessionHost} {X : Slot} {doc : Json} {s : Nat}

theorem restful_writes {c : SessionCall} (h : restful c = true) : writtenDoc c = none := by
  cases c with
  | setKeyring _ _ => cases h
  | writeFile _ _ => cases h
  | _ => rfl

theorem clearing_writes {c : SessionCall} (h : clearing c = true) : writtenDoc c = none := by
  cases c with
  | setKeyring _ _ => cases h
  | writeFile _ _ => cases h
  | _ => rfl

/-- a party that writes saves tokens, and owes what it writes -/
theorem LifeTurn.writes (h : LifeTurn K L t q e q') (hw : writtenDoc e.call = some (X, doc)) :
    t.Saves ∧ ∃ p, q = .busy p ∧ X ∈ owes p ∧ ∃ uid, uidOf p = some uid ∧ docUid X doc = some uid := by
  cases h with
  | rests _ hrest =>
    rw [restful_writes hrest] at hw
    cases hw
  | clears hclear =>
    rw [clearing_writes hclear] at hw
    cases hw
  | refreshes ht hturn =>
    obtain ⟨howes, huid⟩ := hturn.written hw
    exact ⟨.refresh ht, _, rfl, howes, huid⟩
  | saves hturn =>
    obtain ⟨howes, huid⟩ := hturn.written hw
    exact ⟨.login _, _, rfl, howes, huid⟩
  | _ => cases hw

/-- whoever owes anything owes `session.json` -/
theorem owes_session {p : RefreshPhase} (h : X ∈ owes p) : .file .session ∈ owes p := by
  cases p with
  | answered st tok => simp [owes]
  | timed st tok x => simp [owes]
  | keyed st tok x => simp [owes]
  | secured st tok x => simp [owes]
  | clocked st tok x u => simp [owes]
  | dated st tok x u n => simp [owes]
  | _ => cases h

/-! ## logins and logouts that are over -/

theorem LifeRun.login_over (h : LifeRun K L w₀ H w) (hH : H = pre ++ post)
    (hin : LoggedIn L w₀ s pre) : proj (.login s) post = [] := by
  obtain ⟨o, hrun⟩ := h.logins s
  rw [hH, proj_append] at hrun
  cases hpost : proj (.login s) post with
  | nil => rfl
  | cons e rest =>
    rw [hpost] at hrun
    exact absurd hrun hin.done_final

/-- a login that has returned is one that succeeds -/
theorem LifeRun.loggedIn (h : LifeRun K L w₀ H w) (hH : H = pre ++ post)
    (hin : LoggedIn L w₀ s pre) : LoggedIn L w₀ s H := by
  unfold LoggedIn
  rw [hH, proj_append, h.login_over hH hin, List.append_nil]
  exact hin

theorem LifeRun.loggedIn_later (h : LifeRun K L w₀ H w) {mid : Chronicle}
    (hH : H = pre ++ (mid ++ post)) (hin : LoggedIn L w₀ s pre) : LoggedIn L w₀ s (pre ++ mid) := by
  have hnothing := h.login_over hH hin
  rw [proj_append, List.append_eq_nil_iff] at hnothing
  unfold LoggedIn
  rw [proj_append, hnothing.1, List.append_nil]
  exact hin

/-- a login that has returned has made a call -/
theorem LoggedIn.mem (hin : LoggedIn L w₀ s pre) : ∃ e, (.login s, e) ∈ pre := by
  cases hproj : proj (.login s) pre with
  | nil =>
    unfold LoggedIn at hin
    rw [hproj] at hin
    cases hin
  | cons e rest =>
    exact ⟨e, mem_proj.mp (by rw [hproj]; exact List.mem_cons_self)⟩

/-- the session of a party that has acted, other than by its login -/
theorem LifeRun.begun_before (h : LifeRun K L w₀ H w) (hH : H = pre ++ post) (ht : ∀ s, t ≠ .login s)
    (hs : t.session ≠ 0) (he : (t, e) ∈ pre) : LoggedIn L w₀ t.session pre := by
  obtain ⟨a, b, rfl⟩ := List.append_of_mem he
  have hsplit : H = a ++ ((t, e) :: b ++ post) := by rw [hH, List.append_assoc]
  exact h.loggedIn_later hsplit (h.begun a t e (b ++ post) hsplit ht hs)

/-- the login of a session that was logged out makes no further call -/
theorem LifeRun.not_again (h : LifeRun K L w₀ H w) (hH : H = pre ++ (.login s, e) :: post)
    (hlogout : ∃ e', (.logout s, e') ∈ pre) : False := by
  have hmem : e ∈ proj (.login s) ((.login s, e) :: post) := mem_proj.mpr List.mem_cons_self
  by_cases hzero : s = 0
  · subst hzero
    have hnone := h.resumed
    rw [hH, proj_append, List.append_eq_nil_iff] at hnone
    rw [hnone.2] at hmem
    cases hmem
  · obtain ⟨e', he'⟩ := hlogout
    have hlogin : LoggedIn L w₀ s pre := h.begun_before (t := .logout s) hH nofun hzero he'
    rw [h.login_over hH hlogin] at hmem
    cases hmem

theorem LoggedOut.mem (hout : LoggedOut s pre) : ∃ e, (.logout s, e) ∈ pre := by
  cases hproj : proj (.logout s) pre with
  | nil =>
    unfold LoggedOut at hout
    rw [hproj] at hout
    cases hout
  | cons e rest =>
    exact ⟨e, mem_proj.mp (by rw [hproj]; exact List.mem_cons_self)⟩

/-- the last call of a logout that succeeds -/
theorem logout_last {tr : Trace sessionHost} (h : Runs logout.run (tr ++ [e]) (.done (.ok ()))) :
    e = ⟨.fileExists .session, false⟩ ∨ e = ⟨.truncateFile .session, .ok ()⟩ := by
  obtain ⟨st, t₁, u₁, htr, h₁, k₁⟩ := h.bindE_ok
  obtain ⟨_, t₂, u₂, rfl, h₂, k₂⟩ := k₁.bindE_ok
  obtain ⟨_, t₃, u₃, rfl, h₃, k₃⟩ := k₂.bindE_ok
  have hlast : ∀ x, u₃.getLast? = some x → e = x := by
    intro x hx
    have hgot : (tr ++ [e]).getLast? = some x := by
      rw [htr, ← List.append_assoc, ← List.append_assoc, List.getLast?_append, hx]
      rfl
    rw [List.getLast?_concat] at hgot
    exact Option.some.inj hgot
  rcases Runs.call_inv k₃ with ⟨_, hdone⟩ | ⟨there, t₄, rfl, k₄⟩
  · cases hdone
  · cases there with
    | false =>
      obtain ⟨rfl, _⟩ := Runs.ret_inv k₄
      exact .inl (hlast _ rfl)
    | true =>
      rcases Runs.call_inv k₄ with ⟨_, hdone⟩ | ⟨a, t₅, rfl, k₅⟩
      · cases hdone
      · cases a with
        | ok u =>
          obtain ⟨rfl, _⟩ := Runs.ret_inv k₅
          exact .inr (hlast _ rfl)
        | error err => obtain ⟨_, hdone | hdone⟩ := Runs.ret_inv k₅ <;> cases hdone

end

/-! ## the invariant -/

/-- what is known of a party: it acts in the name of its session, and a login has written what it is
past -/
def PartyInv (L : Nat → Login) (w₀ : Machine) (pre : Chronicle) (t : Party) (q : LifePhase) : Prop :=
  ∀ p, q = .busy p → (∀ uid, uidOf p = some uid → uid = t.uid L w₀) ∧
    ∀ s, t = .login s → ∀ X ∈ saved p, ∃ e, (.login s, e) ∈ pre ∧ placed e = some X

/-- what is known of the machine; `owned` is about the logins of the history `H` that succeed -/
structure LifeInv (L : Nat → Login) (w₀ : Machine) (H pre : Chronicle) (w : Machine) : Prop where
  cells : ∀ s, (w.cells s).st.uid = (w₀.cells s).st.uid
  named : ∀ t e X doc, (t, e) ∈ pre → writtenDoc e.call = some (X, doc) →
    docUid X doc = some (t.uid L w₀)
  owned : ∀ s, LoggedIn L w₀ s H → ∀ e X, (.login s, e) ∈ pre → placed e = some X →
    ∀ doc uid, w.stores.at X = some (some doc) → docUid X doc = some uid →
      ∃ s', s ≤ s' ∧ Wrote pre s' X doc
  left : ∀ s, LoggedOut s pre → LastLogin s pre → ∀ doc, w.stores.at (.file .session) ≠ some (some doc)

section
variable {K : Crates} {L : Nat → Login} {w₀ w w' wEnd : Machine} {H pre post : Chronicle} {t : Party}
  {q q' : LifePhase} {e : Event sessionHost} {X : Slot} {doc : Json} {s : Nat}

theorem refreshes_uid (ht : t.refreshes = true) : t.uid L w₀ = (w₀.cells t.session).st.uid := by
  cases t with
  | login s => cases ht
  | logout s => rfl
  | loop s => rfl
  | force s k => rfl

theorem refreshes_not_login (ht : t.refreshes = true) (s : Nat) : t ≠ .login s := by
  rintro rfl
  cases ht

theorem PartyInv.turn (hA : PartyInv L w₀ pre t q) (hG : LifeInv L w₀ H pre w)
    (hturn : LifeTurn K L t q e q') (hstep : MachineStep w (t, e) w') :
    PartyInv L w₀ (pre ++ [(t, e)]) t q' := by
  intro p hp
  cases hturn with
  | rests => cases hp
  | replaces => cases hp
  | ends => cases hp
  | breaks => cases hp
  | clears => cases hp
  | begins ht st =>
    cases hp
    refine ⟨?_, fun s _ X hX => by cases hX⟩
    intro uid huid
    cases huid
    obtain ⟨_, hst, _⟩ := hstep.locks.acquire_inv
    rw [refreshes_uid ht, ← hG.cells, hst]
  | refreshes ht h =>
    cases hp
    refine ⟨fun uid huid => (hA _ rfl).1 uid (h.uid huid), ?_⟩
    intro s hs
    exact absurd hs (refreshes_not_login ht s)
  | times s now =>
    cases hp
    refine ⟨?_, fun s _ X hX => by cases hX⟩
    intro uid huid
    cases huid
    rfl
  | saves h =>
    cases hp
    refine ⟨fun uid huid => (hA _ rfl).1 uid (h.uid huid), ?_⟩
    intro s hs X hX
    rcases h.saved hX with hX | hplaced
    · obtain ⟨e', he', hplaced⟩ := (hA _ rfl).2 s hs X hX
      exact ⟨e', List.mem_append_left _ he', hplaced⟩
    · cases hs
      exact ⟨e, List.mem_concat_self, hplaced⟩

theorem PartyInv.other (hA : PartyInv L w₀ pre t q) (x : Party × Event sessionHost) :
    PartyInv L w₀ (pre ++ [x]) t q := by
  intro p hp
  refine ⟨(hA p hp).1, ?_⟩
  intro s hs X hX
  obtain ⟨e, he, hplaced⟩ := (hA p hp).2 s hs X hX
  exact ⟨e, List.mem_append_left _ he, hplaced⟩

/-- the state of a session is replaced by one of the same uid -/
theorem LifeInv.cells_step (hG : LifeInv L w₀ H pre w) (hA : PartyInv L w₀ pre t q)
    (hturn : LifeTurn K L t q e q') (hstep : MachineStep w (t, e) w') (s : Nat) :
    (w'.cells s).st.uid = (w₀.cells s).st.uid := by
  by_cases hs : s = t.session
  · subst hs
    rcases hstep.locks.st_eq with hst | ⟨st, rfl⟩
    · rw [hst]
      exact hG.cells _
    · obtain ⟨hcell, _⟩ := hstep.locks.replace_inv
      rw [hcell]
      cases hturn with
      | replaces ht =>
        rw [← refreshes_uid (L := L) ht]
        exact (hA _ rfl).1 _ rfl
      | rests _ h => cases h
      | clears h => cases h
      | refreshes _ h => cases h
      | saves h => cases h
  · rw [hstep.others s hs]
    exact hG.cells s

theorem LifeInv.named_step (hG : LifeInv L w₀ H pre w) (hA : PartyInv L w₀ pre t q)
    (hturn : LifeTurn K L t q e q') : ∀ t' e' X doc, (t', e') ∈ pre ++ [(t, e)] →
      writtenDoc e'.call = some (X, doc) → docUid X doc = some (t'.uid L w₀) := by
  intro t' e' X doc he' hw
  rcases List.mem_append.mp he' with he' | he'
  · exact hG.named t' e' X doc he' hw
  · obtain ⟨rfl, rfl⟩ := Prod.mk.inj (List.mem_singleton.mp he')
    obtain ⟨_, p, rfl, _, uid, huid, hdoc⟩ := hturn.writes hw
    rw [hdoc, (hA p rfl).1 uid huid]

theorem Wrote.append (h : Wrote pre s X doc) (H' : Chronicle) : Wrote (pre ++ H') s X doc := by
  obtain ⟨t, e, he, hs, hw⟩ := h
  exact ⟨t, e, List.mem_append_left _ he, hs, hw⟩

/-- the writer of a slot that a login that succeeds has written is of its session, or a later one -/
theorem LifeRun.writer (hrun : LifeRun K L w₀ H wEnd) (hin : InTime K L w₀ H)
    (hH : H = pre ++ (t, e) :: post) (hat : At K L pre t q) (hturn : LifeTurn K L t q e q')
    (hw : writtenDoc e.call = some (X, doc)) (hs : LoggedIn L w₀ s H) {e' : Event sessionHost}
    (he' : (.login s, e') ∈ pre) (hplaced : placed e' = some X) : s ≤ t.session := by
  obtain ⟨hsaves, p, rfl, howes, _⟩ := hturn.writes hw
  cases hsaves with
  | login s' => exact hrun.ordered pre s' e post hH s e' he'
  | refresh ht =>
    by_contra hlt
    exact hin.superseded pre _ t p hH ht hat s e' (Nat.lt_of_not_le hlt) hs he' X howes hplaced

/-- a login that could not write the keyring has found no payload there -/
theorem InTime.keyring_content (hin : InTime K L w₀ H) {uid : String} {err : KeyringError} {doc' : Json}
    (hH : H = pre ++ (.login s, ⟨.setKeyring uid doc', .error err⟩) :: post)
    (hpath : Path MachineStep w₀ pre w) (hs : LoggedIn L w₀ s H)
    (hX : w.stores.at (.keyring uid) = some (some doc)) : docUid (.keyring uid) doc = none := by
  have hnone := hin.keyring pre s uid doc' err post w hH hpath hs
  have hentry : w.stores.keyring uid = some (some doc) := hX
  unfold Stores.entryOf at hnone
  rw [hentry] at hnone
  have hread : KeyringPayload.ofJson doc = none := hnone
  show (KeyringPayload.ofJson doc).map _ = none
  rw [hread]
  rfl

/-- a slot that is written in this step -/
theorem placed_content {s s' : Stores} (hserves : Serves s e s') (hplaced : placed e = some X)
    (hX : s'.at X = some (some doc)) : writtenDoc e.call = some (X, doc) ∨
      ∃ uid doc' err, e = ⟨.setKeyring uid doc', .error err⟩ ∧ X = .keyring uid ∧ s' = s := by
  obtain ⟨c, a⟩ := e
  cases c with
  | setKeyring uid doc' =>
    cases hplaced
    rcases hserves.setKeyring_inv with ⟨rfl, rfl⟩ | ⟨⟨err, rfl⟩, rfl⟩
    · left
      have hentry : (s.setEntry uid (some (some doc'))).keyring uid = some (some doc) := hX
      rw [Stores.setEntry_keyring] at hentry
      cases hentry
      rfl
    · exact .inr ⟨uid, doc', err, rfl, rfl, rfl⟩
  | writeFile path doc' =>
    cases a with
    | error err => cases hplaced
    | ok u =>
      cases hplaced
      left
      have hcontent : s'.file path = some (some doc) := hX
      rw [hserves.writeFile_inv, Stores.setFile_file] at hcontent
      cases hcontent
      rfl
  | _ => cases hplaced

theorem LifeInv.owned_step (hrun : LifeRun K L w₀ H wEnd) (hin : InTime K L w₀ H)
    (hG : LifeInv L w₀ H pre w) (hH : H = pre ++ (t, e) :: post) (hpath : Path MachineStep w₀ pre w)
    (hat : At K L pre t q) (hturn : LifeTurn K L t q e q') (hstep : MachineStep w (t, e) w')
    (hs : LoggedIn L w₀ s H) {e' : Event sessionHost} (he' : (.login s, e') ∈ pre ++ [(t, e)])
    (hplaced : placed e' = some X) {uid : String} (hX : w'.stores.at X = some (some doc))
    (hdoc : docUid X doc = some uid) : ∃ s', s ≤ s' ∧ Wrote (pre ++ [(t, e)]) s' X doc := by
  have hnow : writtenDoc e.call = some (X, doc) → Wrote (pre ++ [(t, e)]) t.session X doc :=
    fun hw => ⟨t, e, List.mem_concat_self, rfl, hw⟩
  rcases List.mem_append.mp he' with he' | he'
  · rcases hstep.serves.content hX with hbefore | hw
    · obtain ⟨s', hle, hwrote⟩ := hG.owned s hs e' X he' hplaced doc uid hbefore hdoc
      exact ⟨s', hle, hwrote.append _⟩
    · exact ⟨_, hrun.writer hin hH hat hturn hw hs he' hplaced, hnow hw⟩
  · obtain ⟨rfl, rfl⟩ := Prod.mk.inj (List.mem_singleton.mp he')
    rcases placed_content hstep.serves hplaced hX with hw | ⟨uid', doc', err, rfl, rfl, hsame⟩
    · exact ⟨s, le_rfl, hnow hw⟩
    · rw [hsame] at hX
      rw [hin.keyring_content hH hpath hs hX] at hdoc
      cases hdoc

/-- a login that has returned has written its slots, in the name of its session -/
theorem LoggedIn.slots (hlogin : LoggedIn L w₀ s pre)
    (hA : ∀ q, At K L pre (.login s) q → PartyInv L w₀ pre (.login s) q) :
    (w₀.cells s).st.uid = (L s).creds.uid ∧
      ∀ X ∈ (L s).slots, ∃ e, (.login s, e) ∈ pre ∧ placed e = some X := by
  obtain ⟨q, hpath, hends⟩ := fromLogin_life (K := K) s _ _ hlogin
  obtain ⟨p, hp, rfl⟩ := hends _ rfl
  obtain rfl : p = .ready (w₀.cells s).st := hp
  obtain ⟨huid, hsaved⟩ := hA _ hpath _ rfl
  have hsame : (w₀.cells s).st.uid = (L s).creds.uid := huid _ rfl
  refine ⟨hsame, fun X hX => hsaved s rfl X ?_⟩
  show X ∈ [Slot.keyring (w₀.cells s).st.uid, .file .secret, .file .session]
  rw [hsame]
  exact hX

theorem Serves.noFile {s s' : Stores} {path : StorePath} (h : Serves s ⟨.fileExists path, false⟩ s') :
    s' = s ∧ s.file path = none := by
  generalize hthere : (false : (SessionCall.fileExists path).Ans) = there at h
  cases h with
  | fileExists =>
    refine ⟨rfl, ?_⟩
    cases hfile : s.file path with
    | none => rfl
    | some text =>
      rw [hfile] at hthere
      cases hthere
  | other h => cases h

theorem Serves.truncated {s s' : Stores} {path : StorePath}
    (h : Serves s ⟨.truncateFile path, .ok ()⟩ s') : s' = s.setFile path (some none) := by
  cases h with
  | truncateFile => rfl
  | other h => cases h

theorem LifeInv.left_step (hrun : LifeRun K L w₀ H wEnd) (hin : InTime K L w₀ H)
    (hG : LifeInv L w₀ H pre w) (hA : ∀ t q, At K L pre t q → PartyInv L w₀ pre t q)
    (hH : H = pre ++ (t, e) :: post) (hat : At K L pre t q) (hturn : LifeTurn K L t q e q')
    (hstep : MachineStep w (t, e) w') (hout : LoggedOut s (pre ++ [(t, e)]))
    (hnew : LastLogin s (pre ++ [(t, e)])) : w'.stores.at (.file .session) ≠ some (some doc) := by
  intro hX
  have hX' : w'.stores.file .session = some (some doc) := hX
  by_cases ht : t = .logout s
  · subst ht
    unfold LoggedOut at hout
    rw [proj_append, proj_self] at hout
    rcases logout_last hout with rfl | rfl
    · obtain ⟨hsame, hnone⟩ := hstep.serves.noFile
      rw [hsame, hnone] at hX'
      cases hX'
    · rw [hstep.serves.truncated, Stores.setFile_file] at hX'
      cases hX'
  · have hbefore : LoggedOut s pre := by
      unfold LoggedOut at hout
      rw [proj_append, proj_other ht, List.append_nil] at hout
      exact hout
    have hnewest : LastLogin s pre := fun s' e' he' => hnew s' e' (List.mem_append_left _ he')
    have hbegun : s ≠ 0 → LoggedIn L w₀ s pre := by
      intro hs
      obtain ⟨e', he'⟩ := hbefore.mem
      exact hrun.begun_before (t := .logout s) hH nofun hs he'
    rcases hstep.serves.content hX with hheld | hw
    · exact hG.left s hbefore hnewest doc hheld
    · obtain ⟨hsaves, p, rfl, howes, _⟩ := hturn.writes hw
      cases hsaves with
      | login s' =>
        have hle : s' ≤ s := hnew s' e List.mem_concat_self
        by_cases hsame : s' = s
        · subst hsame
          exact hrun.not_again hH hbefore.mem
        · obtain ⟨e', he'⟩ := (hbegun (by omega)).mem
          have hge : s ≤ s' := hrun.ordered pre s' e post hH s e' he'
          omega
      | refresh hrefreshes =>
        rcases Nat.lt_trichotomy t.session s with hlt | heq | hgt
        · have hlogin := hbegun (by omega)
          obtain ⟨e', he', hplaced⟩ := (hlogin.slots (hA _)).2 (.file .session) (by simp [Login.slots])
          exact hin.superseded pre _ t p hH hrefreshes hat s e' hlt (hrun.loggedIn hH hlogin) he'
            _ (owes_session howes) hplaced
        · rw [← heq] at hbefore
          rw [hin.loggedOut pre _ t p hH hrefreshes hat hbefore] at howes
          cases howes
        · have hlogin := hrun.begun pre t e post hH (refreshes_not_login hrefreshes) (by omega)
          obtain ⟨e', he'⟩ := hlogin.mem
          have hle := hnewest t.session e' he'
          omega

theorem LifeRun.invariant (hrun : LifeRun K L w₀ H wEnd) (hin : InTime K L w₀ H)
    (hH : H = pre ++ post) (hpath : Path MachineStep w₀ pre w) :
    LifeInv L w₀ H pre w ∧ ∀ t q, At K L pre t q → PartyInv L w₀ pre t q := by
  have hholds : Holds (LifeTurn K L) (fun _ => .idle) (LifeInv L w₀ H)
      (fun pre w t q => PartyInv L w₀ pre t q) pre w := by
    refine interleaved hrun.parties ?_ ?_ ?_ hH hpath
    · refine ⟨fun s => rfl, ?_, ?_, ?_⟩
      · intro t e X doc he
        cases he
      · intro s _ e X he
        cases he
      · intro s hout
        obtain ⟨e, he⟩ := hout.mem
        cases he
    · intro t p hp
      cases hp
    · intro pre t e w w' q q' hat hheld
      obtain ⟨hG, hA⟩ := hheld
      obtain ⟨post, hsplit⟩ := hat.split
      refine ⟨⟨hG.cells_step (hA t q hat.here) hat.turn hat.shared,
        hG.named_step (hA t q hat.here) hat.turn, ?_, ?_⟩, (hA t q hat.here).turn hG hat.turn hat.shared, ?_⟩
      · intro s hs e' X he' hplaced doc uid hX hdoc
        exact hG.owned_step hrun hin hsplit hat.path hat.here hat.turn hat.shared hs he' hplaced hX hdoc
      · intro s hout hnew doc
        exact hG.left_step hrun hin hA hsplit hat.here hat.turn hat.shared hout hnew
      · intro j p _ hp
        exact (hA j p hp).other _
  exact hholds

end

/-! ## every run -/

section
variable {K : Crates} {L : Nat → Login} {w₀ w wEnd : Machine} {H pre post : Chronicle} {t : Party}
  {e : Event sessionHost} {X : Slot} {doc : Json} {s : Nat}

/-- a session that was logged out writes nothing more -/
theorem LifeRun.silent (hrun : LifeRun K L w₀ H wEnd) (hin : InTime K L w₀ H)
    (hH : H = pre ++ (t, e) :: post) (hout : LoggedOut t.session pre) : writtenDoc e.call = none := by
  cases hw : writtenDoc e.call with
  | none => rfl
  | some x =>
    exfalso
    obtain ⟨X, doc⟩ := x
    obtain ⟨q, hq⟩ := hrun.parties t
    rw [hH] at hq
    obtain ⟨q₀, q₁, hat, hturn⟩ := hq.moved
    obtain ⟨hsaves, p, rfl, howes, _⟩ := hturn.writes hw
    cases hsaves with
    | refresh ht =>
      rw [hin.loggedOut pre _ t p hH ht hat hout] at howes
      cases howes
    | login s => exact hrun.not_again hH hout.mem

/-- without a document in `session.json` nothing can be resumed -/
theorem unresumed_fails {stores stores' : Stores} (hnone : ∀ doc, stores.file .session ≠ some (some doc))
    {tr : Trace sessionHost} {r : Except SessionManagerError SessionState}
    (h : Runs fromKeyring.run tr (.done r)) (hs : Path Serves stores tr stores') :
    ∃ err, r = .error err := by
  cases r with
  | error err => exact ⟨err, rfl⟩
  | ok st =>
    obtain ⟨_, sf, kp, hresumes, _⟩ := fromKeyring_ok h hs
    obtain ⟨hsession, _⟩ := Stores.resumes_eq_some.mp hresumes
    obtain ⟨text, hfile, hread⟩ := Stores.readFile_eq_some hsession
    cases text with
    | none => cases hread
    | some doc => exact absurd hfile (hnone doc)

/-- the sessions that have acted are no later than the last login -/
theorem LifeRun.session_le (hrun : LifeRun K L w₀ H wEnd) (hH : H = pre ++ post) (hnew : LastLogin s pre)
    (he : (t, e) ∈ pre) : t.session ≤ s := by
  by_cases hlogin : ∃ s', t = .login s'
  · obtain ⟨s', rfl⟩ := hlogin
    exact hnew s' e he
  · by_cases hzero : t.session = 0
    · omega
    · have hbegun := hrun.begun_before hH (fun s' h => hlogin ⟨s', h⟩) hzero he
      obtain ⟨e', he'⟩ := hbegun.mem
      exact hnew t.session e' he'

/-- in a run in which no refresh comes late a session that was logged out writes nothing more and cannot
be resumed, and what is persisted after a login belongs to it or to a later one -/
theorem retired_dead (hrun : LifeRun K L w₀ H wEnd) (hin : InTime K L w₀ H) : DeadSessions L w₀ H where
  silent pre t e post hH hout := hrun.silent hin hH hout
  fails s pre post w hH hpath hout hnew tr r stores h hs :=
    unresumed_fails ((hrun.invariant hin hH hpath).1.left s hout hnew) h hs
  current s pre post w hH hpath hlogin X hslot doc uid hX hdoc := by
    obtain ⟨hG, hA⟩ := hrun.invariant hin hH hpath
    obtain ⟨hsame, hslots⟩ := hlogin.slots (hA _)
    obtain ⟨e, he, hplaced⟩ := hslots X hslot
    obtain ⟨s', hle, hwrote⟩ := hG.owned s (hrun.loggedIn hH hlogin) e X he hplaced doc uid hX hdoc
    refine ⟨s', hle, hwrote, fun hnew => ?_⟩
    obtain ⟨t, e', he', rfl, hw⟩ := hwrote
    obtain rfl : t.session = s := Nat.le_antisymm (hrun.session_le hH hnew he') hle
    refine ⟨rfl, ?_⟩
    have hnamed := hG.named t e' X doc he' hw
    rw [hdoc] at hnamed
    have huid : uid = t.uid L w₀ := Option.some.inj hnamed
    rw [huid]
    cases t with
    | login s => rfl
    | loop s => exact hsame
    | force s k => exact hsame
    | logout s => exact hsame

end

/-! ## two sessions, one after the other -/

/-- every session returns the same state from its login -/
def smallMachine (stores : Stores) : Machine where
  stores
  cells _ := { st := smallState, holder := none }

def Machine.put (w : Machine) (stores : Stores) : Machine := { w with stores }

def Machine.setCell (w : Machine) (s : Nat) (c : Cell Party) : Machine :=
  { w with cells := Function.update w.cells s c }

theorem Machine.setCell_cells (w : Machine) (s : Nat) (c : Cell Party) :
    (w.setCell s c).cells s = c := by
  unfold Machine.setCell
  exact Function.update_self ..

section
variable {w : Machine} {t : Party} {e : Event sessionHost} {stores : Stores}

/-- a step that no lock notices -/
theorem stored_step (hserves : Serves w.stores e stores) (hcell : leavesCell e.call = true) :
    MachineStep w (t, e) (w.put stores) where
  serves := hserves
  locks := .other _ _ hcell
  others _ _ := rfl

/-- a step that neither the stores nor the lock notice -/
theorem quiet_step (hstores : leavesStores e.call = true) (hcell : leavesCell e.call = true) :
    MachineStep w (t, e) w := stored_step (.other _ hstores) hcell

/-- a step that the stores do not notice -/
theorem locked_step {s : Nat} {c : Cell Party} (ht : t.session = s) (hstores : leavesStores e.call = true)
    (hlocks : Locks (w.cells s) (t, e) c) : MachineStep w (t, e) (w.setCell s c) := by
  subst ht
  refine ⟨.other _ hstores, ?_, fun s hs => Function.update_of_ne hs _ _⟩
  rw [w.setCell_cells]
  exact hlocks

/-- the state of a session is read -/
theorem reading_step {s : Nat} {st : SessionState} (ht : t.session = s)
    (hcell : w.cells s = { st, holder := none }) : MachineStep w (t, ⟨.readState, st⟩) w := by
  have hlocks : Locks (w.cells s) (t, ⟨.readState, st⟩) { st, holder := none } := by
    rw [hcell]
    exact .reads t rfl
  have hstep := locked_step ht rfl hlocks
  unfold Machine.setCell at hstep
  rwa [← hcell, Function.update_eq_self] at hstep

theorem Serves.present {s : Stores} {path : StorePath} (h : (s.file path).isSome = true) :
    Serves s ⟨.fileExists path, true⟩ s := by
  have hexists := Serves.fileExists s path
  rw [h] at hexists
  exact hexists

end

def smallLogin : Login where
  creds := { uid := "u", accessToken := "a0", refreshToken := "r0", keyPassword := "kp" }
  expiresInSecs := 1800

def loginTrace : Trace sessionHost :=
  [⟨.now, (0 : Nat)⟩, ⟨.setKeyring "u" (secretDoc "u" "r0" "kp"), .ok ()⟩,
    ⟨.writeFile .secret (secretDoc "u" "r0" "kp"), .ok ()⟩, ⟨.unixNow, (0 : Nat)⟩, ⟨.now, (0 : Nat)⟩,
    ⟨.writeFile .session (sessionDoc "u" "a0" 0 0 (0 + 1800 * NANOS_PER_SEC)), .ok ()⟩]

def logoutTrace (st : SessionState) : Trace sessionHost :=
  [⟨.readState, st⟩, ⟨.deleteKeyring st.uid, .ok ()⟩, ⟨.removeFile .secret, .ok ()⟩,
    ⟨.fileExists .session, true⟩, ⟨.truncateFile .session, .ok ()⟩]

theorem loginTrace_runs : Runs (fromLogin smallLogin.creds smallLogin.expiresInSecs).run loginTrace
    (.done (.ok smallState)) :=
  .call (.call (.call (.call (.call (.call (.ret _))))))

theorem logoutTrace_runs (st : SessionState) : Runs logout.run (logoutTrace st) (.done (.ok ())) :=
  .call (.call (.call (.call (.call (.ret _)))))

section
variable (w : Machine) (s : Nat)

theorem loginTrace_path : ∃ stores, (stores.file .session).isSome = true ∧
    Path MachineStep w (loginTrace.map fun e => (.login s, e)) (w.put stores) := by
  refine ⟨((w.stores.setEntry "u" (some (some (secretDoc "u" "r0" "kp")))).setFile .secret
    (some (some (secretDoc "u" "r0" "kp")))).setFile .session
      (some (some (sessionDoc "u" "a0" 0 0 (0 + 1800 * NANOS_PER_SEC)))), ?_, ?_⟩
  · rw [Stores.setFile_file]
    rfl
  · exact .cons (quiet_step rfl rfl) (.cons (stored_step (.setKeyring _ _ _) rfl)
      (.cons (stored_step (.writeFile _ _ _) rfl) (.cons (quiet_step rfl rfl)
        (.cons (quiet_step rfl rfl) (.one (stored_step (.writeFile _ _ _) rfl))))))

theorem logoutTrace_path {st : SessionState} (hcell : w.cells s = { st, holder := none })
    (h : (w.stores.file .session).isSome = true) : ∃ stores,
      Path MachineStep w ((logoutTrace st).map fun e => (.logout s, e)) (w.put stores) := by
  refine ⟨((w.stores.setEntry st.uid none).setFile .secret none).setFile .session (some none), ?_⟩
  have hthere : (((w.stores.setEntry st.uid none).setFile .secret none).file .session).isSome = true := by
    rw [Stores.setFile_other _ _ _ _ (by decide)]
    exact h
  exact .cons (reading_step rfl hcell) (.cons (stored_step (.deleteKeyring _ _) rfl)
    (.cons (stored_step (.removeFile _ _) rfl) (.cons (stored_step (.present hthere) rfl)
      (.one (stored_step (.truncateFile _ _) rfl)))))

/-- the loop falls asleep -/
theorem settingTrace_life (hcell : w.cells s = { st := smallState, holder := none }) :
    Path MachineStep w (settingTrace.map fun e => (.loop s, e)) w :=
  .cons (reading_step rfl hcell) (.cons (quiet_step rfl rfl) (.one (quiet_step rfl rfl)))

/-- a forced refresh leaves the new state in the cell -/
theorem reactiveTrace_life (k now : Nat) (hcell : w.cells s = { st := smallState, holder := none }) :
    ∃ w', w'.cells s = { st := freshState now, holder := none } ∧ (w'.stores.file .session).isSome = true ∧
      Path MachineStep w ((reactiveTrace now).map fun e => (.force s k, e)) w' := by
  let stores := ((w.stores.setEntry "u" (some (some (secretDoc "u" "r1" "kp")))).setFile .secret
    (some (some (secretDoc "u" "r1" "kp")))).setFile .session
      (some (some (sessionDoc "u" "a1" 0 now (now + TOKEN_LIFE))))
  let held := w.setCell s { st := smallState, holder := some (.force s k) }
  let replaced := (held.put stores).setCell s { st := freshState now, holder := some (.force s k) }
  have hacquire : MachineStep w (.force s k, ⟨.acquire, smallState⟩) held := by
    refine locked_step rfl rfl ?_
    rw [hcell]
    exact .acquires _ rfl
  have hreplace : MachineStep (held.put stores) (.force s k, ⟨.replace (freshState now), ()⟩) replaced := by
    have hheld : (held.put stores).cells s = { st := smallState, holder := some (.force s k) } :=
      w.setCell_cells s _
    refine locked_step rfl rfl ?_
    rw [hheld]
    exact .replaces _ rfl
  have hrelease : MachineStep replaced (.force s k, ⟨.release, ()⟩)
      (replaced.setCell s { st := freshState now, holder := none }) := by
    refine locked_step rfl rfl ?_
    rw [Machine.setCell_cells]
    exact .releases rfl
  refine ⟨_, replaced.setCell_cells s _, ?_, ?_⟩
  · show (stores.file .session).isSome = true
    rw [Stores.setFile_file]
    rfl
  · exact .cons hacquire (.cons (quiet_step rfl rfl) (.cons (quiet_step rfl rfl)
      (.cons (stored_step (.setKeyring _ _ _) rfl) (.cons (stored_step (.writeFile _ _ _) rfl)
        (.cons (quiet_step rfl rfl) (.cons (quiet_step rfl rfl)
          (.cons (stored_step (.writeFile _ _ _) rfl) (.cons hreplace (.one hrelease)))))))))

end

/-- the first session: its loop falls asleep, it is refreshed by force, and is logged out -/
def firstSession : List (Party × Trace sessionHost) :=
  [(.login 1, loginTrace), (.loop 1, settingTrace), (.force 1 0, reactiveTrace (seconds 1000)),
    (.logout 1, logoutTrace (freshState (seconds 1000)))]

/-- and a second login -/
def wholeChapters : List (Party × Trace sessionHost) := firstSession ++ [(.login 2, loginTrace)]

def wholeLife : Chronicle := chapters wholeChapters

theorem wholeChapters_nodup : (wholeChapters.map Prod.fst).Nodup := by decide

theorem mem_wholeChapters {t : Party} {tr : Trace sessionHost} : (t, tr) ∈ wholeChapters ↔
    (t = .login 1 ∧ tr = loginTrace) ∨ (t = .loop 1 ∧ tr = settingTrace) ∨
      (t = .force 1 0 ∧ tr = reactiveTrace (seconds 1000)) ∨
      (t = .logout 1 ∧ tr = logoutTrace (freshState (seconds 1000))) ∨
      (t = .login 2 ∧ tr = loginTrace) := by
  simp [wholeChapters, firstSession]

/-- what stands in the chapter of a party is all that it does -/
theorem proj_wholeLife {t : Party} {tr : Trace sessionHost} (h : (t, tr) ∈ wholeChapters) :
    proj t wholeLife = tr := by
  obtain ⟨before, after, hcs⟩ := List.append_of_mem h
  have hnodup := wholeChapters_nodup
  rw [hcs, List.map_append, List.map_cons, List.nodup_middle, List.nodup_cons, List.mem_append] at hnodup
  refine proj_chapters hcs (fun c hc heq => ?_) fun c hc heq => ?_
  · exact hnodup.1 (.inl (List.mem_map.mpr ⟨c, hc, heq⟩))
  · exact hnodup.1 (.inr (List.mem_map.mpr ⟨c, hc, heq⟩))

/-- the other parties do nothing -/
theorem proj_wholeLife_nil {t : Party} (h : ∀ tr, (t, tr) ∉ wholeChapters) : proj t wholeLife = [] :=
  proj_chapters_nil fun c hc heq => h c.2 (heq ▸ hc)

theorem mem_wholeLife {t : Party} {e : Event sessionHost} (h : (t, e) ∈ wholeLife) :
    ∃ tr, (t, tr) ∈ wholeChapters ∧ e ∈ tr := mem_chapters.mp h

theorem wholeLife_path (stores : Stores) : ∃ w, Path MachineStep (smallMachine stores) wholeLife w := by
  obtain ⟨stores₁, _, hlogin⟩ := loginTrace_path (smallMachine stores) 1
  have hloop := settingTrace_life ((smallMachine stores).put stores₁) 1 rfl
  obtain ⟨w₂, hcell, hsession, hforce⟩ :=
    reactiveTrace_life ((smallMachine stores).put stores₁) 1 0 (seconds 1000) rfl
  obtain ⟨stores₃, hlogout⟩ := logoutTrace_path w₂ 1 hcell hsession
  obtain ⟨stores₄, _, hagain⟩ := loginTrace_path (w₂.put stores₃) 2
  have hlast : Path MachineStep (w₂.put stores₃) (chapters [(.login 2, loginTrace)])
      ((w₂.put stores₃).put stores₄) := by
    rw [chapters_cons]
    exact hagain.append (.nil _)
  exact ⟨_, hlogin.append (hloop.append (hforce.append (hlogout.append hlast)))⟩

/-- the login of the first session is over once another party has acted -/
theorem wholeLife_login {pre post : Chronicle} {t : Party} {e : Event sessionHost}
    (hH : wholeLife = pre ++ post) (he : (t, e) ∈ pre) (ht : t ≠ .login 1) :
    proj (.login 1) pre = loginTrace := by
  have hcs : wholeChapters = [] ++ (.login 1, loginTrace) :: wholeChapters.tail := rfl
  exact chapters_over hcs (List.forall_mem_nil _) (by decide) (Ne.symm ht) hH he

/-- and its refresh, once it is logged out or there is another login -/
theorem wholeLife_force {pre post : Chronicle} {t : Party} {e : Event sessionHost}
    (hH : wholeLife = pre ++ post) (he : (t, e) ∈ pre) (ht : t = .logout 1 ∨ t = .login 2) :
    proj (.force 1 0) pre = reactiveTrace (seconds 1000) := by
  have hcs : wholeChapters = wholeChapters.take 2 ++
      (.force 1 0, reactiveTrace (seconds 1000)) :: wholeChapters.drop 3 := rfl
  refine chapters_over hcs ?_ ?_ ?_ hH he
  · rcases ht with rfl | rfl <;> decide
  · decide
  · rcases ht with rfl | rfl <;> decide

theorem wholeLife_run (stores : Stores) : ∃ w,
    LifeRun rotatedCrates (fun _ => smallLogin) (smallMachine stores) wholeLife w := by
  obtain ⟨w, hpath⟩ := wholeLife_path stores
  refine ⟨w, hpath, ?_, ?_, ?_, ?_, ?_, ?_, ?_⟩
  · exact proj_wholeLife_nil fun tr => by simp [mem_wholeChapters]
  · intro s
    by_cases hs : s = 1 ∨ s = 2
    · have hmem : (Party.login s, loginTrace) ∈ wholeChapters := by
        rcases hs with rfl | rfl <;> simp [mem_wholeChapters]
      rw [proj_wholeLife hmem]
      exact ⟨_, loginTrace_runs⟩
    · have hnone : ∀ tr, (Party.login s, tr) ∉ wholeChapters := by
        intro tr hc
        simp only [mem_wholeChapters, Party.login.injEq, reduceCtorEq, false_and, false_or] at hc
        exact hs (hc.imp And.left And.left)
      rw [proj_wholeLife_nil hnone]
      exact ⟨_, .stop _⟩
  · intro s
    by_cases hs : s = 1
    · subst hs
      rw [proj_wholeLife (mem_wholeChapters.mpr (.inr (.inl ⟨rfl, rfl⟩)))]
      exact ⟨1, _, .call (.call (.call (.stop _)))⟩
    · rw [proj_wholeLife_nil fun tr => by simp [mem_wholeChapters, hs]]
      exact ⟨0, _, .stop _⟩
  · intro s k
    by_cases hs : s = 1 ∧ k = 0
    · obtain ⟨rfl, rfl⟩ := hs
      rw [proj_wholeLife (mem_wholeChapters.mpr (.inr (.inr (.inl ⟨rfl, rfl⟩))))]
      exact ⟨_, forcedTrace_runs smallState rotated_rotates _⟩
    · rw [proj_wholeLife_nil fun tr => by simpa [mem_wholeChapters] using fun h₁ h₂ => absurd ⟨h₁, h₂⟩ hs]
      exact ⟨_, .stop _⟩
  · intro s
    by_cases hs : s = 1
    · subst hs
      rw [proj_wholeLife (mem_wholeChapters.mpr (.inr (.inr (.inr (.inl ⟨rfl, rfl⟩)))))]
      exact ⟨_, logoutTrace_runs _⟩
    · rw [proj_wholeLife_nil fun tr => by simp [mem_wholeChapters, hs]]
      exact ⟨_, .stop _⟩
  · intro pre t e post hH ht hzero
    have hsplit : wholeLife = (pre ++ [(t, e)]) ++ post := by rw [hH, List.append_assoc]; rfl
    have hmem : (t, e) ∈ wholeLife := hH ▸ List.mem_append_right _ List.mem_cons_self
    have hone : t.session = 1 := by
      obtain ⟨tr, hc, _⟩ := mem_wholeLife hmem
      rcases mem_wholeChapters.mp hc with ⟨rfl, _⟩ | ⟨rfl, _⟩ | ⟨rfl, _⟩ | ⟨rfl, _⟩ | ⟨rfl, _⟩
      · rfl
      · rfl
      · rfl
      · rfl
      · exact absurd rfl (ht 2)
    have hlogin := wholeLife_login hsplit List.mem_concat_self (ht 1)
    rw [proj_append, proj_other (ht 1), List.append_nil] at hlogin
    rw [hone]
    unfold LoggedIn
    rw [hlogin]
    exact loginTrace_runs
  · intro pre s e post hH s' e' he'
    have hsplit : wholeLife = (pre ++ [(.login s, e)]) ++ post := by rw [hH, List.append_assoc]; rfl
    have hs : (Party.login s, e) ∈ wholeLife := hH ▸ List.mem_append_right _ List.mem_cons_self
    have hs' : (Party.login s', e') ∈ wholeLife := hH ▸ List.mem_append_left _ he'
    obtain ⟨_, hc, _⟩ := mem_wholeLife hs
    obtain ⟨_, hc', _⟩ := mem_wholeLife hs'
    simp only [mem_wholeChapters, Party.login.injEq, reduceCtorEq, false_and, false_or] at hc hc'
    by_contra hlt
    obtain ⟨rfl, rfl⟩ : s = 1 ∧ s' = 2 := by omega
    -- the first login would go on after it is over
    have hbefore := wholeLife_login hH he' (by decide)
    have hafter := wholeLife_login hsplit (List.mem_append_left _ he') (by decide)
    rw [proj_append, proj_self, hbefore] at hafter
    exact absurd (congrArg List.length hafter) (by simp)

/-- in its chapter the loop makes no refresh -/
theorem resting_idle {K : Crates} {L : Nat → Login} {t : Party} {l : Trace sessionHost} {q : LifePhase}
    (h : Path (LifeTurn K L t) .idle l q) (ht : t.refreshes = true) (hl : ∀ e ∈ l, restful e.call = true) :
    q = .idle := by
  refine h.invariant (I := fun q => q = .idle) ?_ rfl
  rintro p e q he rfl hturn
  have hrest := hl e he
  cases hturn with
  | rests => rfl
  | begins => cases hrest
  | times => cases ht
  | clears => rfl

/-- a refresh that has released the lock is over -/
theorem released_idle {K : Crates} {L : Nat → Login} {t : Party} {l : Trace sessionHost} {q : LifePhase}
    (h : Path (LifeTurn K L t) .idle (l ++ [⟨.release, ()⟩]) q) : q = .idle := by
  obtain ⟨p, _, hturn⟩ := h.concat_inv
  cases hturn with
  | rests _ hrest => cases hrest
  | ends => rfl
  | breaks => rfl
  | refreshes _ hrefresh => cases hrefresh
  | saves hsave => cases hsave
  | clears hclear => cases hclear

/-- whoever is in a refresh is the forced one, while the first session lasts -/
theorem wholeLife_busy {K : Crates} {L : Nat → Login} {pre post : Chronicle} {t : Party} {p : RefreshPhase}
    (hH : wholeLife = pre ++ post) (ht : t.refreshes = true) (hat : At K L pre t (.busy p)) :
    t = .force 1 0 ∧ ∀ j e, j = .logout 1 ∨ j = .login 2 → (j, e) ∉ pre := by
  unfold At Local at hat
  have hpre : proj t pre <+: proj t wholeLife := by
    rw [hH, proj_append]
    exact List.prefix_append _ _
  by_cases hloop : t = .loop 1
  · subst hloop
    rw [proj_wholeLife (mem_wholeChapters.mpr (.inr (.inl ⟨rfl, rfl⟩)))] at hpre
    have hrests : ∀ e ∈ proj (.loop 1) pre, restful e.call = true := by
      intro e he
      have hmem := hpre.subset he
      simp only [settingTrace, List.mem_cons, List.not_mem_nil, or_false] at hmem
      rcases hmem with rfl | rfl | rfl <;> rfl
    cases resting_idle hat rfl hrests
  · by_cases hforce : t = .force 1 0
    · refine ⟨hforce, fun j e hj he => ?_⟩
      subst hforce
      rw [wholeLife_force hH he hj] at hat
      cases released_idle (l := (reactiveTrace (seconds 1000)).dropLast) hat
    · have hnone : proj t wholeLife = [] := by
        refine proj_wholeLife_nil fun tr hc => ?_
        rcases mem_wholeChapters.mp hc with ⟨rfl, _⟩ | ⟨rfl, _⟩ | ⟨rfl, _⟩ | ⟨rfl, _⟩ | ⟨rfl, _⟩
        · cases ht
        · exact hloop rfl
        · exact hforce rfl
        · cases ht
        · cases ht
      rw [hnone, List.prefix_nil] at hpre
      rw [hpre] at hat
      cases hat.nil_inv

theorem wholeLife_inTime {K : Crates} {L : Nat → Login} {w₀ : Machine} : InTime K L w₀ wholeLife where
  superseded pre post t p hH ht hat s e hs _ he := by
    obtain ⟨rfl, hno⟩ := wholeLife_busy hH ht hat
    obtain ⟨_, hc, _⟩ := mem_wholeLife (hH ▸ List.mem_append_left _ he)
    simp only [mem_wholeChapters, Party.login.injEq, reduceCtorEq, false_and, false_or] at hc
    have hs : 1 < s := hs
    obtain rfl : s = 2 := by omega
    exact absurd he (hno _ e (.inr rfl))
  loggedOut pre post t p hH ht hat hout := by
    obtain ⟨rfl, hno⟩ := wholeLife_busy hH ht hat
    obtain ⟨e, he⟩ := hout.mem
    exact absurd he (hno _ e (.inl rfl))
  keyring pre s uid doc err post w hH := by
    have hmem : (Party.login s, ⟨.setKeyring uid doc, .error err⟩) ∈ wholeLife := by
      rw [hH]
      exact List.mem_append_right _ List.mem_cons_self
    obtain ⟨tr, hc, he⟩ := mem_wholeLife hmem
    obtain rfl : tr = loginTrace := by
      rcases mem_wholeChapters.mp hc with ⟨_, htr⟩ | ⟨h, _⟩ | ⟨h, _⟩ | ⟨h, _⟩ | ⟨_, htr⟩
      · exact htr
      · cases h
      · cases h
      · cases h
      · exact htr
    simp only [loginTrace, List.mem_cons, List.not_mem_nil, or_false] at he
    rcases he with h | h | h | h | h | h <;> cases h

theorem retired_dead_wholeLife : ∃ w, LifeRun rotatedCrates (fun _ => smallLogin)
      (smallMachine loginStores) wholeLife w ∧
    LoggedOut 1 wholeLife ∧ LoggedIn (fun _ => smallLogin) (smallMachine loginStores) 2 wholeLife ∧
    DeadSessions (fun _ => smallLogin) (smallMachine loginStores) wholeLife := by
  obtain ⟨w, hrun⟩ := wholeLife_run loginStores
  refine ⟨w, hrun, ?_, ?_, retired_dead hrun wholeLife_inTime⟩
  · unfold LoggedOut
    rw [proj_wholeLife (mem_wholeChapters.mpr (.inr (.inr (.inr (.inl ⟨rfl, rfl⟩)))))]
    exact logoutTrace_runs _
  · unfold LoggedIn
    rw [proj_wholeLife (mem_wholeChapters.mpr (.inr (.inr (.inr (.inr ⟨rfl, rfl⟩)))))]
    exact loginTrace_runs

/-! ## a loop outlives its logout -/

/-- the server answers the loop with new tokens, and it begins to save them -/
def resavedTrace : Trace sessionHost :=
  [answeredWith smallState rotatedResponse, ⟨.now, seconds 1740⟩,
    ⟨.setKeyring "u" (secretDoc "u" "r1" "kp"), .ok ()⟩]

def outlivingTrace : Trace sessionHost := settingTrace ++ (wokenTrace smallState ++ resavedTrace)

theorem outlivingTrace_runs : Runs (proactiveRefreshLoop rotatedCrates 1).run outlivingTrace .running := by
  have hwake : 0 + sleepDuration smallState.expiresAt 0 = seconds 1740 := by decide
  refine .call (.call (.call (?_ : Runs (ask (.sleepUntil (0 + sleepDuration smallState.expiresAt 0)) >>=
    fun _ => _ : Session Unit).run _ _)))
  rw [hwake]
  exact .call (.call (caught_running
    (doRefresh_answered smallState rotated_rotates (.call (.call (.stop _))))))

/-- the session is logged out while its loop sleeps -/
def outlived : Chronicle :=
  settingTrace.map (fun e => (.loop 0, e)) ++ ((logoutTrace smallState).map (fun e => (.logout 0, e)) ++
    (wokenTrace smallState ++ resavedTrace).map fun e => (.loop 0, e))

theorem mem_outlived {t : Party} {e : Event sessionHost} (h : (t, e) ∈ outlived) :
    t = .loop 0 ∨ t = .logout 0 := by
  rcases List.mem_append.mp h with h | h
  · obtain ⟨e', _, heq⟩ := List.mem_map.mp h
    cases heq
    exact .inl rfl
  · rcases List.mem_append.mp h with h | h
    · obtain ⟨e', _, heq⟩ := List.mem_map.mp h
      cases heq
      exact .inr rfl
    · obtain ⟨e', _, heq⟩ := List.mem_map.mp h
      cases heq
      exact .inl rfl

theorem proj_outlived {t : Party} (hloop : t ≠ .loop 0) (hout : t ≠ .logout 0) :
    proj t outlived = [] := by
  refine List.eq_nil_iff_forall_not_mem.mpr fun e he => ?_
  rcases mem_outlived (mem_proj.mp he) with h | h
  · exact hloop h
  · exact hout h

theorem proj_outlived_loop : proj (.loop 0) outlived = outlivingTrace := by
  unfold outlived outlivingTrace
  rw [proj_append, proj_map_self, proj_append, proj_map_other (by decide), proj_map_self,
    List.nil_append]

theorem proj_outlived_logout : proj (.logout 0) outlived = logoutTrace smallState := by
  unfold outlived
  rw [proj_append, proj_map_other (by decide), proj_append, proj_map_self,
    proj_map_other (by decide), List.append_nil, List.nil_append]

theorem resavedTrace_path (stores : Stores) : ∃ w, Path MachineStep (smallMachine stores)
    ((wokenTrace smallState ++ resavedTrace).map fun e => (.loop 0, e)) w := by
  let held := (smallMachine stores).setCell 0 { st := smallState, holder := some (.loop 0) }
  have hacquire : MachineStep (smallMachine stores) (.loop 0, ⟨.acquire, smallState⟩) held :=
    locked_step rfl rfl (.acquires _ rfl)
  exact ⟨_, .cons (quiet_step rfl rfl) (.cons hacquire (.cons (quiet_step rfl rfl)
    (.cons (quiet_step rfl rfl) (.one (stored_step (.setKeyring _ _ _) rfl)))))⟩

theorem outlived_run : ∃ w,
    LifeRun rotatedCrates (fun _ => smallLogin) (smallMachine loginStores) outlived w := by
  have hsleeps := settingTrace_life (smallMachine loginStores) 0 rfl
  obtain ⟨stores, hlogout⟩ := logoutTrace_path (smallMachine loginStores) 0 rfl rfl
  obtain ⟨w, hsaves⟩ := resavedTrace_path stores
  refine ⟨w, hsleeps.append (hlogout.append hsaves), proj_outlived (by simp) (by simp),
    ?_, ?_, ?_, ?_, ?_, ?_⟩
  · intro s
    rw [proj_outlived (by simp) (by simp)]
    exact ⟨_, .stop _⟩
  · intro s
    by_cases hs : s = 0
    · subst hs
      rw [proj_outlived_loop]
      exact ⟨1, _, outlivingTrace_runs⟩
    · rw [proj_outlived (by simpa using hs) (by simp)]
      exact ⟨0, _, .stop _⟩
  · intro s k
    rw [proj_outlived (by simp) (by simp)]
    exact ⟨_, .stop _⟩
  · intro s
    by_cases hs : s = 0
    · subst hs
      rw [proj_outlived_logout]
      exact ⟨_, logoutTrace_runs _⟩
    · rw [proj_outlived (by simp) (by simpa using hs)]
      exact ⟨_, .stop _⟩
  · intro pre t e post hH _ hzero
    have hmem : (t, e) ∈ outlived := by
      rw [hH]
      exact List.mem_append_right _ List.mem_cons_self
    rcases mem_outlived hmem with rfl | rfl <;> exact absurd rfl hzero
  · intro pre s e post hH
    have hmem : (Party.login s, e) ∈ outlived := by
      rw [hH]
      exact List.mem_append_right _ List.mem_cons_self
    rcases mem_outlived hmem with h | h <;> cases h

/-- after the logout has returned the detached loop writes the keyring -/
theorem detached_loop_writes : ¬ ∀ K L w₀ H w, LifeRun K L w₀ H w → DeadSessions L w₀ H := by
  intro hall
  obtain ⟨w, hrun⟩ := outlived_run
  have hdead := hall _ _ _ _ _ hrun
  have hout : LoggedOut (Party.loop 0).session (settingTrace.map (fun e => (Party.loop 0, e)) ++
      ((logoutTrace smallState).map (fun e => (Party.logout 0, e)) ++
        (wokenTrace smallState ++ resavedTrace.take 2).map fun e => (Party.loop 0, e))) := by
    show Runs logout.run (proj (Party.logout 0) _) _
    rw [proj_append, proj_map_other (by decide), proj_append, proj_map_self,
      proj_map_other (by decide), List.nil_append, List.append_nil]
    exact logoutTrace_runs _
  cases hdead.silent _ _ _ [] rfl hout

end ProtonDrive
