import ProtonDrive.Session.Commands
import ProtonDrive.Session.Retired

/-!
# A logout, and the refresh loop beside it

A logout resumes the session that it is to end.  With that the refresh loop of the session is spawned, and
runs beside the command until the process ends.

* `LogoutRun`            a logout and the loop, interleaved, over the stores and the state behind its lock;
* `clearedSlot`          the slot that an answer shows to be cleared;
* `Granted`, `Rewritten` the server gives the loop new tokens, and the loop writes them;
* `LogoutInv`            the state has the uid of the session that was built, and whatever the loop has still
                         to write was granted;
* `runLogout_clears`     the command writes nothing.  Once it has reported a logout, what is left of the
                         session is what the loop wrote after the command had cleared it.

The command looks for its session as the older commands do, so a `session.json` that is a list of values is
no session to it, although one is resumed from it (`LegacySession.ofJson_list`).
-/

set_option linter.unusedVariables false

namespace ProtonDrive
open Encoding Effects Api Paths

/-! ## the command and the loop -/

inductive LogoutParty where
  | command
  | loop
  deriving DecidableEq

structure LogoutWorld where
  stores : Stores
  /-- the state behind its lock, once the session is built -/
  cell : Option (Cell LogoutParty)

/-- the loop is spawned when the session is built -/
def LogoutWorld.Acts (w : LogoutWorld) : LogoutParty → Prop
  | .command => True
  | .loop => w.cell ≠ none

inductive LogoutStep : LogoutWorld → LogoutParty × Event cliHost → LogoutWorld → Prop
  | stored {w : LogoutWorld} {s' i} {c : SessionCall} {a : c.Ans} (hi : w.Acts i)
      (hc : leavesCell c = true) (h : Serves w.stores ⟨c, a⟩ s') :
      LogoutStep w (i, ⟨.session c, a⟩) { w with stores := s' }
  | locked (s) {cell cell' i} {c : SessionCall} {a : c.Ans} (hc : leavesCell c = false)
      (h : Locks cell (i, ⟨c, a⟩) cell') :
      LogoutStep ⟨s, some cell⟩ (i, ⟨.session c, a⟩) ⟨s, some cell'⟩
  | build (s st) :
      LogoutStep ⟨s, none⟩ (.command, ⟨.build st, ()⟩) ⟨s, some { st, holder := none }⟩
  | aside (w) {e} (h : isAside e.call = true) : LogoutStep w (.command, e) w

abbrev LogoutHistory := List (LogoutParty × Event cliHost)

/-- a logout over the stores `s`, cut anywhere, and the loop -/
structure LogoutRun (K : Crates) (s : Stores) (H : LogoutHistory) (o : Outcome ExitCode)
    (w : LogoutWorld) : Prop where
  path : Path LogoutStep ⟨s, none⟩ H w
  command : Runs runLogout (proj .command H) o
  loop : ∃ fuel tr o, Runs (proactiveRefreshLoop K fuel).run tr o ∧ proj .loop H = tr.map Event.onCli

/-! ## what is left -/

/-- where a session is persisted -/
def sessionSlots (uid : String) : List Slot := [.keyring uid, .file .secret, .file .session]

def clearedSlot : Event sessionHost → Option Slot
  | ⟨.deleteKeyring uid, .ok _⟩ => some (.keyring uid)
  | ⟨.deleteKeyring uid, .error .noEntry⟩ => some (.keyring uid)
  | ⟨.removeFile path, .ok _⟩ => some (.file path)
  | ⟨.removeFile path, .error (.notFound _)⟩ => some (.file path)
  | ⟨.fileExists path, false⟩ => some (.file path)
  | ⟨.truncateFile path, .ok _⟩ => some (.file path)
  | _ => none

/-- the command has cleared the slot -/
def WasCleared (H : LogoutHistory) (X : Slot) : Prop :=
  ∃ e, (.command, Event.onCli e) ∈ H ∧ clearedSlot e = some X

/-- the server has given the loop new tokens -/
def Granted (K : Crates) (H : LogoutHistory) : Prop :=
  ∃ st resp tok, Rotates K resp tok ∧
    (LogoutParty.loop, (⟨.session (.requestJson (refreshRequest st)), .ok resp⟩ : Event cliHost)) ∈ H

/-- after `pre` the loop writes the document, with tokens that it was given -/
def Rewritten (K : Crates) (H pre : LogoutHistory) (X : Slot) (doc : Json) : Prop :=
  ∃ mid e post, H = pre ++ (mid ++ (.loop, e) :: post) ∧ cliWritten e.call = some (X, doc) ∧
    Granted K (pre ++ mid)

/-- no run of `from_keyring` over these stores returns a session -/
def NotResumed (s : Stores) : Prop :=
  ∀ tr s' st, Path Serves s tr s' → ¬ Runs fromKeyring.run tr (.done (.ok st))

section
variable {s s' : Stores} {w w' : LogoutWorld} {H : LogoutHistory} {X : Slot} {doc : Json}
  {e : Event sessionHost}

theorem cleared_touches (h : leavesStores e.call = true) : clearedSlot e = none := by
  obtain ⟨c, a⟩ := e
  cases c with
  | deleteKeyring _ => cases h
  | removeFile _ => cases h
  | fileExists _ => cases h
  | truncateFile _ => cases h
  | _ => rfl

theorem Serves.cleared (h : Serves s e s') (hX : clearedSlot e = some X) :
    s'.at X ≠ some (some doc) := by
  intro hdoc
  cases h with
  | deleteKeyring uid =>
    cases hX
    have hentry : (s.setEntry uid none).keyring uid = some (some doc) := hdoc
    rw [Stores.setEntry_keyring] at hentry
    cases hentry
  | deleteKeyringNone hnone =>
    cases hX
    cases hnone.symm.trans hdoc
  | removeFile path =>
    cases hX
    have hfile : (s.setFile path none).file path = some (some doc) := hdoc
    rw [Stores.setFile_file] at hfile
    cases hfile
  | removeFileNone msg hnone =>
    cases hX
    cases hnone.symm.trans hdoc
  | fileExists path =>
    have hthere : (s.file path).isSome = true := by
      cases hfile : (s.file path).isSome with
      | true => rfl
      | false =>
        rw [hfile] at hX
        cases hX
        have hfile' : s.file path = some (some doc) := hdoc
        rw [hfile'] at hfile
        cases hfile
    rw [hthere] at hX
    cases hX
  | truncateFile path =>
    cases hX
    have hfile : (s.setFile path (some none)).file path = some (some doc) := hdoc
    rw [Stores.setFile_file] at hfile
    cases hfile
  | other hother => cases (cleared_touches hother).symm.trans hX
  | _ => cases hX

theorem LogoutStep.content {x : LogoutParty × Event cliHost} (h : LogoutStep w x w')
    (hX : w'.stores.at X = some (some doc)) :
    w.stores.at X = some (some doc) ∨ cliWritten x.2.call = some (X, doc) := by
  cases h with
  | stored _ _ h => exact h.content hX
  | _ => exact .inl hX

/-- a document in the stores was there before, or was written -/
theorem logout_content (h : Path LogoutStep w H w') (hX : w'.stores.at X = some (some doc)) :
    w.stores.at X = some (some doc) ∨
      ∃ pre x post, H = pre ++ x :: post ∧ cliWritten x.2.call = some (X, doc) := by
  induction h with
  | nil => exact .inl hX
  | cons he _ ih =>
    rcases ih hX with hX | ⟨pre, x, post, rfl, hw⟩
    · rcases he.content hX with hX | hw
      · exact .inl hX
      · exact .inr ⟨[], _, _, rfl, hw⟩
    · exact .inr ⟨_ :: pre, x, post, rfl, hw⟩

end

/-! ## the calls of a logout -/

/-- the calls that neither write a document nor replace the state -/
def takesAway : SessionCall → Bool
  | .setKeyring _ _ => false
  | .writeFile _ _ => false
  | .replace _ => false
  | _ => true

def departs : CliCall → Bool
  | .session c => takesAway c
  | _ => true

theorem departs_writes {c : CliCall} (h : departs c = true) : cliWritten c = none := by
  cases c with
  | session c =>
    cases c with
    | setKeyring _ _ => cases h
    | writeFile _ _ => cases h
    | _ => rfl
  | _ => rfl

abbrev TakesAway (c : SessionCall) : Prop := takesAway c = true

theorem readText_only {α : Type} {A : SessionCall → Prop} {type : String} {dec : Json → Option α}
    {text : Text} : Only A (readText type dec text).run := by
  unfold readText
  cases text.bind dec <;> trivial

theorem loadSecret_only (uid : String) : Only TakesAway (loadSecret uid).run := by
  have hkeyring : Only TakesAway (loadKeyring uid).run := by
    refine ⟨rfl, fun got : Except KeyringError Text => ?_⟩
    match got with
    | .ok raw => exact readText_only
    | .error .noEntry => trivial
    | .error (.other msg) => trivial
  have hfile : Only TakesAway (loadSecretFile uid).run := by
    refine ⟨rfl, fun there : Bool => ?_⟩
    cases there with
    | false => trivial
    | true =>
      refine ⟨rfl, fun read => Only.bindE orFail_only fun raw => Only.bindE readText_only fun payload => ?_⟩
      exact Only.ite (fun _ => trivial) fun _ => trivial
  unfold loadSecret
  rw [caught_bind]
  refine Only.bind hkeyring fun loaded => ?_
  match loaded with
  | .ok kp => trivial
  | .error (.noKeyring _) => exact hfile
  | .error .sessionExpired => trivial
  | .error (.keyring _) => trivial
  | .error (.io _) => trivial
  | .error (.json _) => trivial
  | .error (.http _) => trivial

theorem fromKeyring_only : Only TakesAway fromKeyring.run := by
  have hload : Only TakesAway loadSessionFile.run :=
    ⟨rfl, fun read => Only.bindE orFail_only fun bytes => readText_only⟩
  refine Only.bindE hload fun sf => Only.bindE (loadSecret_only sf.uid) fun kp => ?_
  exact ⟨rfl, fun nowUnix => ⟨rfl, fun now => trivial⟩⟩

theorem LegacySession.load_only : Only TakesAway LegacySession.load.run := by
  refine ⟨rfl, fun there : Bool => ?_⟩
  cases there with
  | false => trivial
  | true =>
    refine ⟨rfl, fun read : Except IoError Text => ?_⟩
    match read with
    | .error e => trivial
    | .ok text =>
      show Only TakesAway (LegacySession.parsed text).run
      unfold LegacySession.parsed
      cases text.bind LegacySession.ofJson <;> trivial

theorem runLogout_only : Only (fun c => departs c = true) runLogout := by
  have hlogout : Only TakesAway logout.run := by
    refine logout_clears.mono fun c hc => ?_
    cases c <;> first | rfl | cases hc
  refine Only.bind (onSession_only LegacySession.load_only fun c hc => hc) fun loaded => ?_
  match loaded with
  | .error e => exact ⟨rfl, fun _ => trivial⟩
  | .ok session =>
    refine ⟨rfl, fun client : Except Error Unit => ?_⟩
    match client with
    | .error e => exact ⟨rfl, fun _ => trivial⟩
    | .ok _ =>
      have hresume : Only (fun c => departs c = true) resume.run :=
        Only.bindE (onSession_only fromKeyring_only fun c hc => hc) fun st => ⟨rfl, fun _ => trivial⟩
      show Only (fun c => departs c = true) (resume.run >>= _)
      refine Only.bind hresume fun resumed => ?_
      match resumed with
      | .error e => exact ⟨rfl, fun _ => trivial⟩
      | .ok st =>
        refine Only.bind (onSession_only hlogout fun c hc => hc) fun result => ?_
        match result with
        | .ok _ => exact ⟨rfl, fun _ => trivial⟩
        | .error e => exact ⟨rfl, fun _ => trivial⟩

/-! ## the invariant -/

/-- the command takes no part in a refresh; the logins `L` take no part at all -/
inductive LogoutTurn (K : Crates) (L : Nat → Login) :
    LogoutParty → LifePhase → Event cliHost → LifePhase → Prop
  | command {e} (h : departs e.call = true) : LogoutTurn K L .command .idle e .idle
  | loop {p q} {c : SessionCall} {a : c.Ans} (h : LifeTurn K L (.loop 0) p ⟨c, a⟩ q) :
      LogoutTurn K L .loop p ⟨.session c, a⟩ q

/-- a session of this uid was built -/
def BuiltFor (H : LogoutHistory) (uid : String) : Prop :=
  ∃ st, (LogoutParty.command, (⟨.build st, ()⟩ : Event cliHost)) ∈ H ∧ st.uid = uid

/-- the state has the uid of the session that was built -/
def LogoutInv (H : LogoutHistory) (w : LogoutWorld) : Prop :=
  ∀ c, w.cell = some c → BuiltFor H c.st.uid

/-- so has what the loop has got, and whatever it has still to write was granted -/
def RefreshInv (K : Crates) (H : LogoutHistory) (q : LifePhase) : Prop :=
  ∀ p, q = .busy p → (∀ uid, uidOf p = some uid → BuiltFor H uid) ∧ ∀ X ∈ owes p, Granted K H

section
variable {K : Crates} {L : Nat → Login} {s : Stores} {w w' : LogoutWorld} {H pre post : LogoutHistory}
  {o : Outcome ExitCode} {q q' : LifePhase} {i : LogoutParty} {e : Event cliHost} {X : Slot} {doc : Json}

theorem BuiltFor.append {uid : String} (h : BuiltFor H uid) (H' : LogoutHistory) :
    BuiltFor (H ++ H') uid := by
  obtain ⟨st, hmem, huid⟩ := h
  exact ⟨st, List.mem_append_left _ hmem, huid⟩

theorem Granted.append (h : Granted K H) (H' : LogoutHistory) : Granted K (H ++ H') := by
  obtain ⟨st, resp, tok, hrotates, hmem⟩ := h
  exact ⟨st, resp, tok, hrotates, List.mem_append_left _ hmem⟩

theorem RefreshInv.append (h : RefreshInv K H q) (H' : LogoutHistory) : RefreshInv K (H ++ H') q :=
  fun p hp => ⟨fun uid huid => ((h p hp).1 uid huid).append H', fun X hX => ((h p hp).2 X hX).append H'⟩

/-- what a refresh owes it has owed before, or it was just answered -/
theorem RefreshTurn.owes {p p' : RefreshPhase} {e : Event sessionHost} (h : RefreshTurn K p e p')
    (hX : X ∈ ProtonDrive.owes p') : X ∈ ProtonDrive.owes p ∨
      ∃ st resp tok, e = ⟨.requestJson (refreshRequest st), .ok resp⟩ ∧ Rotates K resp tok := by
  cases h with
  | answers st hrotates => exact .inr ⟨st, _, _, rfl, hrotates⟩
  | times st tok now => exact .inl hX
  | keys st tok x a => exact .inl (List.mem_cons_of_mem _ hX)
  | secures st tok x => exact .inl (List.mem_cons_of_mem _ hX)
  | clocks st tok x now => exact .inl hX
  | dates st tok x u now => exact .inl hX
  | _ => cases hX

theorem loop_turns {tr : Trace sessionHost} (h : Path (LifeTurn K L (.loop 0)) q tr q') :
    Path (LogoutTurn K L .loop) q (tr.map Event.onCli) q' := by
  induction h with
  | nil => exact .nil _
  | cons hturn _ ih => exact .cons (.loop hturn) ih

theorem LogoutRun.parties (L : Nat → Login) (h : LogoutRun K s H o w) (i : LogoutParty) :
    ∃ q, Local (LogoutTurn K L) (fun _ => .idle) H i q := by
  cases i with
  | command => exact ⟨.idle, Path.stays fun e he => .command (h.command.only runLogout_only e he)⟩
  | loop =>
    obtain ⟨fuel, tr, o, hrun, hproj⟩ := h.loop
    obtain ⟨q, hpath, _⟩ := loop_life (L := L) 0 fuel tr o hrun
    refine ⟨q, ?_⟩
    unfold Local
    rw [hproj]
    exact loop_turns hpath

theorem LogoutInv.step (hG : LogoutInv pre w) (hA : RefreshInv K pre q) (hturn : LogoutTurn K L i q e q')
    (hstep : LogoutStep w (i, e) w') : LogoutInv (pre ++ [(i, e)]) w' := by
  intro c hc
  cases hstep with
  | stored => exact (hG c hc).append _
  | aside => exact (hG c hc).append _
  | build s st =>
    cases hc
    exact ⟨st, List.mem_concat_self, rfl⟩
  | locked s hleaves hlocks =>
    cases hc
    rcases hlocks.st_eq with hst | ⟨st, heq⟩
    · rw [hst]
      exact (hG _ rfl).append _
    · cases heq
      obtain ⟨hcell, _⟩ := hlocks.replace_inv
      rw [hcell]
      cases hturn with
      | command h => cases h
      | loop h =>
        cases h with
        | replaces _ => exact ((hA _ rfl).1 _ rfl).append _
        | rests _ h => cases h
        | refreshes _ h => cases h

theorem RefreshInv.step (hA : RefreshInv K pre q) (hG : LogoutInv pre w) (hturn : LogoutTurn K L i q e q')
    (hstep : LogoutStep w (i, e) w') : RefreshInv K (pre ++ [(i, e)]) q' := by
  intro p hp
  cases hturn with
  | command => cases hp
  | loop h =>
    cases h with
    | rests => cases hp
    | replaces => cases hp
    | ends => cases hp
    | breaks => cases hp
    | begins _ st =>
      cases hp
      refine ⟨?_, fun X hX => by cases hX⟩
      intro uid huid
      cases huid
      cases hstep with
      | stored _ hc => cases hc
      | locked s hc hlocks =>
        obtain ⟨_, hst, _⟩ := hlocks.acquire_inv
        rw [← hst]
        exact (hG _ rfl).append _
    | refreshes _ h =>
      cases hp
      refine ⟨fun uid huid => ((hA _ rfl).1 uid (h.uid huid)).append _, fun X hX => ?_⟩
      rcases h.owes hX with hX | ⟨st, resp, tok, heq, hrotates⟩
      · exact ((hA _ rfl).2 X hX).append _
      · cases heq
        exact ⟨st, resp, tok, hrotates, List.mem_concat_self⟩

theorem LogoutRun.invariant (L : Nat → Login) (h : LogoutRun K s H o w') (hH : H = pre ++ post)
    (hpath : Path LogoutStep ⟨s, none⟩ pre w) :
    LogoutInv pre w ∧ ∀ i q, Local (LogoutTurn K L) (fun _ => .idle) pre i q → RefreshInv K pre q := by
  have hholds : Holds (LogoutTurn K L) (fun _ => .idle) LogoutInv (fun pre w i q => RefreshInv K pre q)
      pre w := by
    refine interleaved (h.parties L) (fun c hc => by cases hc) (fun i p hp => by cases hp) ?_ hH hpath
    intro pre i e w w' q q' hat ⟨hG, hA⟩
    refine ⟨hG.step (hA i q hat.here) hat.turn hat.shared, (hA i q hat.here).step hG hat.turn hat.shared, ?_⟩
    exact fun j p _ hp => (hA j p hp).append _
  exact hholds

/-- the state that the command reads has the uid of the session that it has built -/
theorem LogoutRun.read_uid (h : LogoutRun K s H o w) {st : SessionState}
    (hread : (LogoutParty.command, (⟨.session .readState, st⟩ : Event cliHost)) ∈ H) :
    BuiltFor H st.uid := by
  obtain ⟨pre, post, rfl⟩ := List.append_of_mem hread
  obtain ⟨w₁, hpre, hpost⟩ := h.path.append_inv
  cases hpost with
  | cons hstep _ =>
    obtain ⟨hG, _⟩ := h.invariant (fun _ => smallLogin) rfl hpre
    cases hstep with
    | stored _ hc => cases hc
    | locked s hc hlocks =>
      obtain ⟨_, hst, _⟩ := hlocks.readState_inv
      rw [← hst]
      exact (hG _ rfl).append _
    | aside _ h => cases h

/-- what is written beside the stores of the beginning is written by the loop, with tokens that it was
given -/
theorem LogoutRun.writer (h : LogoutRun K s H o w) (hH : H = pre ++ (i, e) :: post)
    (hw : cliWritten e.call = some (X, doc)) : i = .loop ∧ Granted K pre := by
  have hmem : (i, e) ∈ H := by
    rw [hH]
    exact List.mem_append_right _ List.mem_cons_self
  cases i with
  | command =>
    have hnone := departs_writes (h.command.only runLogout_only e (mem_proj.mpr hmem))
    cases hnone.symm.trans hw
  | loop =>
    refine ⟨rfl, ?_⟩
    obtain ⟨q, hq⟩ := h.parties (fun _ => smallLogin) .loop
    rw [hH] at hq
    obtain ⟨q₀, q₁, hat, hturn⟩ := hq.moved
    have hpath := h.path
    rw [hH] at hpath
    obtain ⟨w₁, hpre, _⟩ := hpath.append_inv
    cases hturn with
    | loop hlife =>
      obtain ⟨_, p, rfl, howes, _⟩ := hlife.writes hw
      exact ((h.invariant (fun _ => smallLogin) hH hpre).2 _ _ hat p rfl).2 X howes

end

/-! ## a logout that is reported as done -/

/-- what a command has done that reports a logout: it has found no session, or it has resumed and ended one -/
inductive ReportedLogout : Trace cliHost → Prop
  | absent {t : Trace sessionHost} {e text} (hload : Runs LegacySession.load.run t (.done (.error e)))
      (htext : isAside text.call = true) : ReportedLogout (t.map Event.onCli ++ [text])
  | ended {t₁ t₂ t₃ : Trace sessionHost} {l st client text}
      (hload : Runs LegacySession.load.run t₁ (.done (.ok l))) (hclient : isAside client.call = true)
      (hresume : Runs fromKeyring.run t₂ (.done (.ok st)))
      (hlogout : Runs logout.run t₃ (.done (.ok ()))) (htext : isAside text.call = true) :
      ReportedLogout (t₁.map Event.onCli ++ (client :: (t₂.map Event.onCli ++
        (⟨.build st, ()⟩ :: (t₃.map Event.onCli ++ [text])))))

theorem runLogout_reported {tr : Trace cliHost} (h : Runs runLogout tr (.done .success)) :
    ReportedLogout tr := by
  obtain ⟨loaded, t₁, u₁, rfl, h₁, k₁⟩ := Runs.bind_done h
  obtain ⟨tr₁, r, rfl, hload, rfl⟩ := onSession_done h₁
  match r, k₁ with
  | .error e, k₁ =>
    obtain ⟨_, a, rfl⟩ := reported k₁
    exact .absent hload rfl
  | .ok session, k₁ =>
    rcases Runs.call_inv k₁ with ⟨_, ho⟩ | ⟨client, u, rfl, k₂⟩
    · cases ho
    · match client, k₂ with
      | .error e, k₂ => cases (reported k₂).1
      | .ok _, k₂ =>
        obtain ⟨resumed, t₄, u₄, rfl, h₄, k₄⟩ := Runs.bind_done (p := resume.run) k₂
        match resumed, k₄ with
        | .error e, k₄ => cases (reported k₄).1
        | .ok st, k₄ =>
          obtain ⟨st', t₅, u₅, rfl, h₅, k₅⟩ := h₄.bindE_ok
          obtain ⟨_, t₆, u₆, rfl, h₆, k₆⟩ := k₅.bindE_ok
          obtain ⟨rfl, rfl⟩ := returned_inv k₆
          obtain rfl := tell_ok h₆
          obtain ⟨t, rfl, hresume⟩ := onSession_ok h₅
          obtain ⟨result, t₇, u₇, rfl, h₇, k₇⟩ := Runs.bind_done (p := (onSession id logout).run) k₄
          match result, k₇ with
          | .error e, k₇ => cases (reported k₇).1
          | .ok _, k₇ =>
            obtain ⟨_, a, rfl⟩ := reported k₇
            obtain ⟨t', rfl, hlogout⟩ := onSession_ok h₇
            have hclient : isAside (⟨.newClient session.baseUrl session.appVersion, .ok ()⟩ :
                Event cliHost).call = true := rfl
            have htext : isAside (⟨.println "logged out: keyring entry deleted, session.json truncated", a⟩ :
                Event cliHost).call = true := rfl
            have hparts := ReportedLogout.ended hload hclient hresume hlogout htext
            simpa using hparts

section
variable {tr : Trace sessionHost} {uid : String}

theorem deleteKeyring_cleared (h : Runs (deleteKeyring uid).run tr (.done (.ok ()))) :
    ∃ e ∈ tr, clearedSlot e = some (.keyring uid) := by
  rcases Runs.call_inv h with ⟨_, ho⟩ | ⟨deleted, t, rfl, k⟩
  · cases ho
  · match deleted, k with
    | .ok _, _ => exact ⟨_, List.mem_cons_self, rfl⟩
    | .error .noEntry, _ => exact ⟨_, List.mem_cons_self, rfl⟩
    | .error (.other msg), k => obtain ⟨_, k | k⟩ := Runs.ret_inv k <;> cases k

theorem deleteSecretFile_cleared (h : Runs deleteSecretFile.run tr (.done (.ok ()))) :
    ∃ e ∈ tr, clearedSlot e = some (.file .secret) := by
  rcases Runs.call_inv h with ⟨_, ho⟩ | ⟨removed, t, rfl, k⟩
  · cases ho
  · match removed, k with
    | .ok _, _ => exact ⟨_, List.mem_cons_self, rfl⟩
    | .error (.notFound msg), _ => exact ⟨_, List.mem_cons_self, rfl⟩
    | .error (.other msg), k => obtain ⟨_, k | k⟩ := Runs.ret_inv k <;> cases k

theorem truncateSessionFile_cleared (h : Runs truncateSessionFile.run tr (.done (.ok ()))) :
    ∃ e ∈ tr, clearedSlot e = some (.file .session) := by
  rcases Runs.call_inv h with ⟨_, ho⟩ | ⟨there, t, rfl, k⟩
  · cases ho
  · match there, k with
    | false, _ => exact ⟨_, List.mem_cons_self, rfl⟩
    | true, k =>
      obtain ⟨truncated, t₁, u₁, rfl, h₁, k₁⟩ := Runs.bindE_ok k
      obtain rfl := ask_ok h₁
      obtain ⟨rfl, rfl⟩ := orFail_ok k₁
      exact ⟨_, List.mem_cons_of_mem _ List.mem_cons_self, rfl⟩

/-- a logout that succeeds clears the slots of the session whose state it has read -/
theorem logout_cleared (h : Runs logout.run tr (.done (.ok ()))) :
    ∃ st, (⟨.readState, st⟩ : Event sessionHost) ∈ tr ∧
      ∀ X ∈ sessionSlots st.uid, ∃ e ∈ tr, clearedSlot e = some X := by
  obtain ⟨st, t₁, u₁, rfl, h₁, k₁⟩ := h.bindE_ok
  obtain ⟨_, t₂, u₂, rfl, h₂, k₂⟩ := k₁.bindE_ok
  obtain ⟨_, t₃, u₃, rfl, h₃, k₃⟩ := k₂.bindE_ok
  obtain rfl := ask_ok h₁
  refine ⟨st, List.mem_cons_self, fun X hX => ?_⟩
  have hparts : ∃ e ∈ t₂ ++ (t₃ ++ u₃), clearedSlot e = some X := by
    rcases List.mem_cons.mp hX with rfl | hX
    · obtain ⟨e, he, hcleared⟩ := deleteKeyring_cleared h₂
      exact ⟨e, List.mem_append_left _ he, hcleared⟩
    · rcases List.mem_cons.mp hX with rfl | hX
      · obtain ⟨e, he, hcleared⟩ := deleteSecretFile_cleared h₃
        exact ⟨e, List.mem_append_right _ (List.mem_append_left _ he), hcleared⟩
      · obtain rfl := List.mem_singleton.mp hX
        obtain ⟨e, he, hcleared⟩ := truncateSessionFile_cleared k₃
        exact ⟨e, List.mem_append_right _ (List.mem_append_right _ he), hcleared⟩
  obtain ⟨e, he, hcleared⟩ := hparts
  exact ⟨e, List.mem_cons_of_mem _ he, hcleared⟩

end

/-! ## before the session is built -/

/-- what the manager reads of a `session.json` with members, the older commands read too -/
theorem LegacySession.ofJson_some {j : Json} {sf : SessionFile} (hlist : ∀ items, j ≠ .arr items)
    (h : SessionFile.ofJson j = some sf) : ∃ l, LegacySession.ofJson j = some l := by
  unfold SessionFile.ofJson at h
  rw [Json.record_of_not_arr hlist] at h
  simp only [Option.bind_eq_bind, Option.bind_eq_some_iff] at h
  obtain ⟨uid, huid, accessToken, htoken, _, _, appVersion, hversion, baseUrl, hurl, _⟩ := h
  unfold LegacySession.ofJson
  rw [Json.record_of_not_arr hlist, huid, htoken, hversion, hurl]
  exact ⟨_, rfl⟩

/-- a list from which a session is resumed is no session to the older commands: its third value is a
number, and they expect the version of the app there -/
theorem LegacySession.ofJson_list {items : List Json} {sf : SessionFile}
    (h : SessionFile.ofJson (.arr items) = some sf) : LegacySession.ofJson (.arr items) = none := by
  have hthird : ∀ {c : Json} {n : Nat} {text : String}, c.asU64 = some n → c.asStr = some text → False := by
    intro c n text hn htext
    cases c with
    | num _ => cases htext
    | _ => cases hn
  refine Option.eq_none_iff_forall_ne_some.mpr fun l hl => ?_
  obtain ⟨hmin, _, h⟩ := Json.record_arr_some h
  obtain ⟨_, hmax, hl⟩ := Json.record_arr_some hl
  simp only [Option.bind_eq_bind, Option.bind_eq_some_iff] at h hl
  obtain ⟨_, _, _, _, n, hn, _⟩ := h
  obtain ⟨_, _, _, _, text, htext, _⟩ := hl
  match items, hmin, hmax with
  | [], hmin, _ => simp at hmin
  | [_], hmin, _ => simp at hmin
  | [_, _], hmin, _ => simp at hmin
  | [_, _, c], _, _ => exact hthird hn htext
  | [_, _, c, _], _, _ => exact hthird hn htext
  | _ :: _ :: _ :: _ :: _ :: rest, _, hmax =>
    have hmax : rest.length + 5 ≤ 4 := hmax
    omega

section
variable {tr : Trace sessionHost} {s s' : Stores}

theorem Serves.exists_inv {path : StorePath} {there : Bool} (h : Serves s ⟨.fileExists path, there⟩ s') :
    s' = s ∧ (there = false → s.file path = none) := by
  cases h with
  | fileExists => exact ⟨rfl, fun hthere => Option.not_isSome_iff_eq_none.mp (by rw [hthere]; nofun)⟩
  | other h => cases h

/-- the older commands find no session in a `session.json` with members, or none at all, where none is
resumed -/
theorem LegacySession.load_served {r : Except SessionError LegacySession}
    (h : Runs LegacySession.load.run tr (.done r)) (hs : Path Serves s tr s')
    (hlist : ∀ items, s.file .session ≠ some (some (.arr items))) :
    s' = s ∧ ((∃ l, r = .ok l) ∨ (∃ e, ⟨.readFile .session, .error e⟩ ∈ tr) ∨
      s.readFile .session SessionFile.ofJson = none) := by
  rcases Runs.call_inv h with ⟨_, ho⟩ | ⟨there, t, rfl, k⟩
  · cases ho
  · cases hs with
    | cons hexists hrest =>
      obtain ⟨rfl, hthere⟩ := hexists.exists_inv
      match there, k with
      | false, k =>
        obtain ⟨rfl, _⟩ := Runs.ret_inv k
        refine ⟨hrest.nil_inv, .inr (.inr ?_)⟩
        unfold Stores.readFile
        rw [hthere rfl]
      | true, k =>
        rcases Runs.call_inv k with ⟨_, ho⟩ | ⟨read, t', rfl, k'⟩
        · cases ho
        · match read, k' with
          | .error e, k' =>
            obtain ⟨rfl, _⟩ := Runs.ret_inv k'
            cases hrest.one_inv with
            | readFileFailed => exact ⟨rfl, .inr (.inl ⟨e, List.mem_cons_of_mem _ List.mem_cons_self⟩)⟩
            | other h => cases h
          | .ok text, k' =>
            have k' : Runs (LegacySession.parsed text).run t' (.done r) := k'
            unfold LegacySession.parsed at k'
            cases hl : text.bind LegacySession.ofJson with
            | some l =>
              rw [hl] at k'
              obtain ⟨rfl, ho | ho⟩ := Runs.ret_inv k'
              · cases ho
                exact ⟨hrest.one_inv.readFile_inv.1, .inl ⟨l, rfl⟩⟩
              · cases ho
            | none =>
              rw [hl] at k'
              obtain ⟨rfl, _⟩ := Runs.ret_inv k'
              obtain ⟨rfl, hfile⟩ := hrest.one_inv.readFile_inv
              refine ⟨rfl, .inr (.inr ?_)⟩
              unfold Stores.readFile
              rw [hfile]
              cases text with
              | none => rfl
              | some j =>
                refine Option.eq_none_iff_forall_ne_some.mpr fun sf hsf => ?_
                have hmembers : ∀ items, j ≠ .arr items := fun items hj => hlist items (by rw [hfile, hj])
                obtain ⟨l, hread⟩ := LegacySession.ofJson_some hmembers hsf
                cases hread.symm.trans hl

end

section
variable {K : Crates} {s : Stores} {w w' : LogoutWorld} {H H₁ H₂ : LogoutHistory} {o : Outcome ExitCode}
  {e : Event cliHost} {t : Trace cliHost} {X : Slot} {doc : Json}

/-- before the session is built there is only the command -/
theorem unbuilt_cons (h : Path LogoutStep ⟨s, none⟩ H w) (hH : proj .command H = e :: t) :
    ∃ w₁ H', H = (.command, e) :: H' ∧ LogoutStep ⟨s, none⟩ (.command, e) w₁ ∧
      Path LogoutStep w₁ H' w ∧ proj .command H' = t := by
  cases h with
  | nil => cases hH
  | cons hstep hrest =>
    rename_i x w₁ H'
    obtain ⟨i, e'⟩ := x
    have hi : i = .command := by
      cases hstep with
      | stored hi => cases i with
        | command => rfl
        | loop => exact absurd rfl hi
      | build => rfl
      | aside => rfl
    subst hi
    rw [proj_cons, proj_self] at hH
    obtain ⟨rfl, htail⟩ := List.cons.inj hH
    exact ⟨w₁, H', rfl, hstep, hrest, htail⟩

theorem unbuilt_served {tr : Trace sessionHost} (h : Path LogoutStep ⟨s, none⟩ H w)
    (hH : proj .command H = tr.map Event.onCli ++ t) :
    ∃ s' H₁ H₂, H = H₁ ++ H₂ ∧ Path Serves s tr s' ∧ Path LogoutStep ⟨s', none⟩ H₂ w ∧
      proj .command H₂ = t := by
  induction tr generalizing s H with
  | nil => exact ⟨s, [], H, rfl, .nil s, h, hH⟩
  | cons e tr ih =>
    obtain ⟨c, a⟩ := e
    have hcons : proj .command H = (⟨.session c, a⟩ : Event cliHost) :: (tr.map Event.onCli ++ t) := hH
    obtain ⟨w₁, H', rfl, hstep, hrest, htail⟩ := unbuilt_cons h hcons
    cases hstep with
    | stored _ _ hserves =>
      obtain ⟨s', H₁, H₂, rfl, hserved, hpath, hproj⟩ := ih hrest htail
      exact ⟨s', _ :: H₁, H₂, rfl, .cons hserves hserved, hpath, hproj⟩
    | aside _ h => cases h

theorem unbuilt_aside (h : Path LogoutStep ⟨s, none⟩ H w) (hH : proj .command H = e :: t)
    (he : isAside e.call = true) :
    ∃ H', H = (.command, e) :: H' ∧ Path LogoutStep ⟨s, none⟩ H' w ∧ proj .command H' = t := by
  obtain ⟨w₁, H', rfl, hstep, hrest, htail⟩ := unbuilt_cons h hH
  cases hstep with
  | aside => exact ⟨H', rfl, hrest, htail⟩
  | stored => cases he
  | build => cases he

/-! ## every logout -/

theorem NotResumed.of_session {s : Stores} (h : s.readFile .session SessionFile.ofJson = none) :
    NotResumed s := by
  intro tr s' st hs hrun
  obtain ⟨_, sf, kp, hresumes, _⟩ := fromKeyring_ok hrun hs
  cases h.symm.trans (Stores.resumes_eq_some.mp hresumes).1

/-- a document in a slot that the command has cleared was written by the loop since -/
theorem LogoutRun.rewritten (h : LogoutRun K s H o w) {e : Event sessionHost}
    (he : (.command, Event.onCli e) ∈ H) (hcleared : clearedSlot e = some X)
    (hX : w.stores.at X = some (some doc)) : ∃ pre, WasCleared pre X ∧ Rewritten K H pre X doc := by
  obtain ⟨pre, post, rfl⟩ := List.append_of_mem he
  have hpath := h.path
  rw [List.append_cons] at hpath
  obtain ⟨w₂, hpre, hpost⟩ := hpath.append_inv
  obtain ⟨w₁, _, hstep⟩ := hpre.concat_inv
  have hgone : w₂.stores.at X ≠ some (some doc) := by
    have hstep : LogoutStep w₁ (.command, ⟨.session e.call, e.ans⟩) w₂ := hstep
    cases hstep with
    | stored _ _ hserves => exact hserves.cleared hcleared
    | locked s hc _ =>
      obtain ⟨c, a⟩ := e
      cases c with
      | readState => cases hcleared
      | acquire => cases hcleared
      | replace _ => cases hcleared
      | release => cases hcleared
      | _ => cases hc
    | aside _ h => cases h
  rcases logout_content hpost hX with hbefore | ⟨mid, x, rest, rfl, hw⟩
  · exact absurd hbefore hgone
  · obtain ⟨i, e'⟩ := x
    have hsplit : pre ++ (.command, Event.onCli e) :: (mid ++ (i, e') :: rest) =
        (pre ++ [(.command, Event.onCli e)] ++ mid) ++ (i, e') :: rest := by
      rw [List.append_cons, List.append_assoc, List.append_assoc, List.append_assoc]
    obtain ⟨rfl, hgranted⟩ := h.writer hsplit hw
    refine ⟨pre ++ [(.command, Event.onCli e)], ⟨e, List.mem_concat_self, hcleared⟩, mid, e', rest, ?_, hw,
      hgranted⟩
    rw [List.append_cons]

/-- a logout that is reported, of the session in `session.json` -/
theorem LogoutRun.slots (h : LogoutRun K s H (.done .success) w)
    (hread : ∀ e, (.command, ⟨.session (.readFile .session), .error e⟩) ∉ H)
    (hlist : ∀ items, s.file .session ≠ some (some (.arr items))) {sf : SessionFile}
    (hsf : s.readFile .session SessionFile.ofJson = some sf) (hX : X ∈ sessionSlots sf.uid) :
    ∃ e, (.command, Event.onCli e) ∈ H ∧ clearedSlot e = some X := by
  obtain ⟨tr, htr⟩ : ∃ tr, proj .command H = tr := ⟨_, rfl⟩
  have hrun := h.command
  rw [htr] at hrun
  cases runLogout_reported hrun with
  | absent hload _ =>
    rename_i t e text
    obtain ⟨s', H₁, H₂, rfl, hserved, _, _⟩ := unbuilt_served h.path htr
    obtain ⟨_, ⟨l, hl⟩ | ⟨e', he'⟩ | hnone⟩ := LegacySession.load_served hload hserved hlist
    · cases hl
    · refine absurd ?_ (hread e')
      rw [← mem_proj, htr]
      exact List.mem_append_left _ (List.mem_map_of_mem (f := Event.onCli) he')
    · cases hnone.symm.trans hsf
  | ended hload hclient hresume hlogout htext =>
    rename_i t₁ t₂ t₃ l st client text
    obtain ⟨s₁, _, H₁, _, hserved₁, hpath₁, hproj₁⟩ := unbuilt_served h.path htr
    obtain ⟨H₂, _, hpath₂, hproj₂⟩ := unbuilt_aside hpath₁ hproj₁ hclient
    obtain ⟨s₂, _, H₃, _, hserved₂, _, _⟩ := unbuilt_served hpath₂ hproj₂
    obtain ⟨hsame, _⟩ := LegacySession.load_served hload hserved₁ hlist
    rw [hsame] at hserved₂
    obtain ⟨_, sf', kp, hresumes, huid, _⟩ := fromKeyring_ok hresume hserved₂
    cases (Stores.resumes_eq_some.mp hresumes).1.symm.trans hsf
    -- the state that the command reads is that of the session it has built
    obtain ⟨st', hreads, hcleared⟩ := logout_cleared hlogout
    have hmem : ∀ e ∈ t₃, (LogoutParty.command, Event.onCli e) ∈ H := by
      intro e he
      rw [← mem_proj, htr]
      have hin := List.mem_map_of_mem (f := Event.onCli) he
      simp [hin]
    obtain ⟨built, hbuilt, hsame'⟩ := h.read_uid (hmem _ hreads)
    have hbuilt' : built = st := by
      rw [← mem_proj, htr] at hbuilt
      simp only [List.mem_append, List.mem_cons, List.mem_map, List.not_mem_nil, or_false] at hbuilt
      rcases hbuilt with ⟨e, _, heq⟩ | heq | ⟨e, _, heq⟩ | heq | ⟨e, _, heq⟩ | heq
      · cases heq
      · rw [← heq] at hclient
        cases hclient
      · cases heq
      · cases heq
        rfl
      · cases heq
      · rw [← heq] at htext
        cases htext
    rw [← huid, ← hbuilt', hsame'] at hX
    obtain ⟨e, he, hX⟩ := hcleared X hX
    exact ⟨e, hmem e he, hX⟩

/-- However the two are interleaved: a document in the stores was there before, or the loop has written it
with tokens that it was given.  A logout that is reported as done, of a `session.json` that could be read
and is no list, has cleared the slots of its session, and what is in one of them the loop has written since.
If the loop was given no tokens there is nothing to resume. -/
theorem runLogout_clears (h : LogoutRun K s H o w) :
    (∀ X doc, w.stores.at X = some (some doc) →
      s.at X = some (some doc) ∨ Rewritten K H [] X doc) ∧
    (o = .done .success → (∀ e, (.command, ⟨.session (.readFile .session), .error e⟩) ∉ H) →
      (∀ items, s.file .session ≠ some (some (.arr items))) →
      (∀ sf, s.readFile .session SessionFile.ofJson = some sf → ∀ X ∈ sessionSlots sf.uid, ∀ doc,
        w.stores.at X = some (some doc) → ∃ pre, WasCleared pre X ∧ Rewritten K H pre X doc) ∧
      (¬ Granted K H → NotResumed w.stores)) := by
  have hbefore : ∀ X doc, w.stores.at X = some (some doc) →
      s.at X = some (some doc) ∨ Rewritten K H [] X doc := by
    intro X doc hX
    rcases logout_content h.path hX with hX | ⟨pre, x, post, hH, hw⟩
    · exact .inl hX
    · obtain ⟨i, e⟩ := x
      obtain ⟨rfl, hgranted⟩ := h.writer hH hw
      exact .inr ⟨pre, e, post, hH, hw, hgranted⟩
  refine ⟨hbefore, ?_⟩
  rintro rfl hread hlist
  have hslots : ∀ sf, s.readFile .session SessionFile.ofJson = some sf → ∀ X ∈ sessionSlots sf.uid,
      ∀ doc, w.stores.at X = some (some doc) → ∃ pre, WasCleared pre X ∧ Rewritten K H pre X doc := by
    intro sf hsf X hX doc hdoc
    obtain ⟨e, he, hcleared⟩ := h.slots hread hlist hsf hX
    exact h.rewritten he hcleared hdoc
  refine ⟨hslots, fun hgranted => .of_session ?_⟩
  have hnone : ∀ {pre X doc}, ¬ Rewritten K H pre X doc := by
    intro pre X doc ⟨mid, e, post, hH, _, hg⟩
    refine hgranted ?_
    rw [hH, ← List.append_assoc]
    exact hg.append _
  refine Option.eq_none_iff_forall_ne_some.mpr fun sf hsf => ?_
  obtain ⟨text, hfile, hdec⟩ := Stores.readFile_eq_some hsf
  cases text with
  | none => cases hdec
  | some doc =>
    rcases hbefore (.file .session) doc hfile with hold | hnew
    · have hold : s.file .session = some (some doc) := hold
      have hsf' : s.readFile .session SessionFile.ofJson = some sf := by
        unfold Stores.readFile
        rw [hold]
        exact hdec
      obtain ⟨pre, _, hre⟩ := hslots sf hsf' (.file .session) (by simp [sessionSlots]) doc hfile
      exact hnone hre
    · exact hnone hnew

end

/-! ## the session of "u" is ended while its loop falls asleep -/

def keptStores : Stores where
  keyring uid := if uid = "u" then some (some (secretDoc "u" "r0" "kp")) else none
  file path := match path with
    | .session => some (some (sessionDoc "u" "a0" 0 0 0))
    | .secret => some (some (secretDoc "u" "r0" "kp"))

def keptState : SessionState where
  uid := "u"
  accessToken := "a0"
  refreshToken := "r0"
  keyPassword := "kp"
  expiresAt := 0

def loadTrace (doc : Json) : Trace sessionHost :=
  [⟨.fileExists .session, true⟩, ⟨.readFile .session, .ok (some doc)⟩]

def resumeTrace : Trace sessionHost :=
  [⟨.readFile .session, .ok (some (sessionDoc "u" "a0" 0 0 0))⟩,
    ⟨.getKeyring "u", .ok (some (secretDoc "u" "r0" "kp"))⟩, ⟨.unixNow, (0 : Nat)⟩, ⟨.now, (0 : Nat)⟩]

def clearTrace : Trace sessionHost :=
  [⟨.readState, keptState⟩, ⟨.deleteKeyring "u", .ok ()⟩, ⟨.removeFile .secret, .ok ()⟩,
    ⟨.fileExists .session, true⟩, ⟨.truncateFile .session, .ok ()⟩]

/-- the loop finds a token that has expired, and sleeps for a second -/
def drowsyTrace : Trace sessionHost :=
  [⟨.readState, keptState⟩, ⟨.now, (0 : Nat)⟩, ⟨.now, (0 : Nat)⟩]

def openingTrace : Trace cliHost :=
  (loadTrace (sessionDoc "u" "a0" 0 0 0)).map Event.onCli ++
    (⟨.newClient defaultBaseUrl defaultAppVersion, .ok ()⟩ ::
      (resumeTrace.map Event.onCli ++ [⟨.build keptState, ()⟩]))

def closingTrace : Trace cliHost :=
  clearTrace.map Event.onCli ++
    [⟨.println "logged out: keyring entry deleted, session.json truncated", ()⟩]

def wholeLogout : LogoutHistory :=
  openingTrace.map (fun e => (.command, e)) ++ ((drowsyTrace.map Event.onCli).map (fun e => (.loop, e)) ++
    closingTrace.map fun e => (.command, e))

theorem wholeLogout_runs : Runs runLogout (openingTrace ++ closingTrace) (.done .success) := by
  have hload : Runs LegacySession.load.run (loadTrace (sessionDoc "u" "a0" 0 0 0))
      (.done (.ok ⟨"a0", "u", defaultAppVersion, defaultBaseUrl⟩)) := .call (.call (.ret _))
  have hkeyring : Runs fromKeyring.run resumeTrace (.done (.ok keptState)) :=
    .call (.call (.call (.call (.ret _))))
  have hresume : Runs resume.run (resumeTrace.map Event.onCli ++ [⟨.build keptState, ()⟩])
      (.done (.ok keptState)) :=
    Runs.bindE (onSession_runs hkeyring) (.call (.ret _))
  have hlogout : Runs logout.run clearTrace (.done (.ok ())) :=
    .call (.call (.call (.call (.call (.ret _)))))
  unfold openingTrace
  rw [List.append_assoc, List.cons_append]
  refine Runs.bind (onSession_runs hload) (.call ?_)
  show Runs (resume.run >>= _) _ _
  exact Runs.bind hresume (Runs.bind (onSession_runs hlogout) (.call (.ret _)))

/-- the steps of the command that leave the lock alone -/
theorem stored_path {s s' : Stores} {cell : Option (Cell LogoutParty)} {tr : Trace sessionHost}
    (h : Path Serves s tr s') (htr : ∀ e ∈ tr, leavesCell e.call = true) :
    Path LogoutStep ⟨s, cell⟩ ((tr.map Event.onCli).map fun e => (.command, e)) ⟨s', cell⟩ := by
  induction h with
  | nil => exact .nil _
  | cons he _ ih =>
    exact .cons (.stored trivial (htr _ List.mem_cons_self) he)
      (ih fun e he => htr e (List.mem_cons_of_mem _ he))

theorem openingTrace_path : Path LogoutStep ⟨keptStores, none⟩ (openingTrace.map fun e => (.command, e))
    ⟨keptStores, some { st := keptState, holder := none }⟩ := by
  have hload : Path Serves keptStores (loadTrace (sessionDoc "u" "a0" 0 0 0)) keptStores :=
    .cons (.fileExists _ _) (.one (.readFile rfl))
  have hresume : Path Serves keptStores resumeTrace keptStores :=
    .cons (.readFile rfl) (.cons (.getKeyring rfl) (.cons (.other _ rfl) (.one (.other _ rfl))))
  unfold openingTrace
  rw [List.map_append, List.map_cons, List.map_append]
  exact (stored_path hload (by simp [loadTrace, leavesCell])).append (.cons (.aside _ rfl)
    ((stored_path hresume (by simp [resumeTrace, leavesCell])).append (.one (.build _ _))))

theorem drowsyTrace_path (s : Stores) :
    Path LogoutStep ⟨s, some { st := keptState, holder := none }⟩
      ((drowsyTrace.map Event.onCli).map fun e => (.loop, e))
      ⟨s, some { st := keptState, holder := none }⟩ :=
  .cons (.locked _ rfl (.reads _ rfl)) (.cons (.stored nofun rfl (.other _ rfl))
    (.one (.stored nofun rfl (.other _ rfl))))

theorem closingTrace_path : ∃ s', Path LogoutStep ⟨keptStores, some { st := keptState, holder := none }⟩
    (closingTrace.map fun e => (.command, e)) ⟨s', some { st := keptState, holder := none }⟩ := by
  refine ⟨_, .cons (.locked _ rfl (.reads _ rfl)) (.cons (.stored trivial rfl (.deleteKeyring _ _))
    (.cons (.stored trivial rfl (.removeFile _ _)) (.cons (.stored trivial rfl (.fileExists _ _))
      (.cons (.stored trivial rfl (.truncateFile _ _)) (.one (.aside _ rfl))))))⟩

theorem drowsyTrace_runs : Runs (proactiveRefreshLoop rotatedCrates 1).run drowsyTrace .running :=
  .call (.call (.call (.stop _)))

theorem wholeLogout_run : ∃ w, LogoutRun rotatedCrates keptStores wholeLogout (.done .success) w := by
  obtain ⟨s', hclosing⟩ := closingTrace_path
  refine ⟨_, openingTrace_path.append ((drowsyTrace_path _).append hclosing), ?_, 1, drowsyTrace, .running,
    drowsyTrace_runs, ?_⟩
  · unfold wholeLogout
    rw [proj_append, proj_map_self, proj_append, proj_map_other (by decide), proj_map_self, List.nil_append]
    exact wholeLogout_runs
  · unfold wholeLogout
    rw [proj_append, proj_map_other (by decide), proj_append, proj_map_self, proj_map_other (by decide),
      List.append_nil, List.nil_append]

/-- a read of `session.json` that failed, or a request -/
def hinders : Event cliHost → Bool
  | ⟨.session (.readFile .session), .error _⟩ => true
  | ⟨.session (.requestJson _), _⟩ => true
  | _ => false

theorem wholeLogout_quiet : ∀ x ∈ wholeLogout, hinders x.2 = false := by
  simp [wholeLogout, openingTrace, closingTrace, loadTrace, resumeTrace, clearTrace, drowsyTrace, Event.onCli,
    hinders]

/-- nothing is left of it -/
theorem wholeLogout_clears : ∃ w, LogoutRun rotatedCrates keptStores wholeLogout (.done .success) w ∧
    keptStores.readFile .session SessionFile.ofJson ≠ none ∧ NotResumed w.stores ∧
    ∀ X ∈ sessionSlots "u", ∀ doc, w.stores.at X ≠ some (some doc) := by
  obtain ⟨w, hrun⟩ := wholeLogout_run
  have hungranted : ¬ Granted rotatedCrates wholeLogout := by
    intro ⟨st, resp, tok, _, hmem⟩
    cases wholeLogout_quiet _ hmem
  have hread : ∀ e, (LogoutParty.command, (⟨.session (.readFile .session), .error e⟩ : Event cliHost)) ∉
      wholeLogout := fun e he => nomatch wholeLogout_quiet _ he
  obtain ⟨hslots, hnot⟩ := (runLogout_clears hrun).2 rfl hread nofun
  have hsf := sessionDoc_read "u" "a0" 0 0 0
  refine ⟨w, hrun, by rw [show keptStores.readFile .session SessionFile.ofJson = _ from hsf]; nofun,
    hnot hungranted, fun X hX doc hdoc => ?_⟩
  obtain ⟨pre, _, mid, e, post, hH, _, hgranted⟩ := hslots _ hsf X hX doc hdoc
  refine hungranted ?_
  rw [hH, ← List.append_assoc]
  exact hgranted.append _

/-! ## a `session.json` that is a list -/

/-- `["u", "a0", 123]` -/
def listedSession : Json := .arr [.str "u", .str "a0", .num 123]

def listedStores : Stores where
  keyring uid := if uid = "u" then some (some (secretDoc "u" "r0" "kp")) else none
  file path := match path with
    | .session => some (some listedSession)
    | .secret => none

def listedTrace : Trace cliHost :=
  (loadTrace listedSession).map Event.onCli ++ [⟨.println "no active session — nothing to log out", ()⟩]

def listedLogout : LogoutHistory := listedTrace.map fun e => (.command, e)

/-- there is nothing to log out, and still a session to resume -/
theorem listedLogout_resumes : ∃ w, LogoutRun rotatedCrates listedStores listedLogout (.done .success) w ∧
    w.stores.resumes ≠ none := by
  have hload : Runs LegacySession.load.run (loadTrace listedSession) (.done (.error (.parse "Session"))) :=
    .call (.call (.ret _))
  have hserved : Path Serves listedStores (loadTrace listedSession) listedStores :=
    .cons (.fileExists _ _) (.one (.readFile rfl))
  have hpath : Path LogoutStep ⟨listedStores, none⟩ listedLogout ⟨listedStores, none⟩ := by
    unfold listedLogout listedTrace
    rw [List.map_append]
    exact (stored_path hserved (by simp [loadTrace, leavesCell])).append (.one (.aside _ rfl))
  have hcommand : Runs runLogout (proj .command listedLogout) (.done .success) := by
    unfold listedLogout
    rw [proj_map_self]
    exact Runs.bind (onSession_fails hload) (.call (.ret _))
  have hloop : proj .loop listedLogout = ([] : Trace sessionHost).map Event.onCli :=
    proj_map_other (by decide) _
  exact ⟨_, ⟨hpath, hcommand, 0, [], .running, .stop _, hloop⟩, nofun⟩

end ProtonDrive
