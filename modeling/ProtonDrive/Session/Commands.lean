import ProtonDrive.App.Cli
import ProtonDrive.App.Stack
import ProtonDrive.Session.Lifetimes
import ProtonDrive.Session.Stores

/-!
# The commands over the stores

* `onHost_ok`, `onSession_ok`
                         what a command asks of its client and of its session, as runs of their own;
* `CliServes`            the answers of the stores to the calls of a command, and of the state behind the lock
                         once a session is built;
* `served_content`       a document in the stores was there before, or was written.
-/

set_option linter.unusedVariables false

namespace ProtonDrive
open Encoding Effects Api Paths

/-! ## the calls of a command -/

def Event.onCli (e : Event sessionHost) : Event cliHost := ⟨.session e.call, e.ans⟩

def Event.ofHost (e : Event host) : Event cliHost := ⟨.host e.call, e.ans⟩

section
variable {ε ε' α β : Type} {f : ε' → ε} {low tr : Trace cliHost}

theorem lift_bind {q : Prog cliHost α} {k : α → Command ε β} :
    (ExceptT.lift q >>= k).run = q >>= fun a => (k a).run := ExceptT.run_bind_lift _ _

theorem returned_inv {a b : α} (h : Runs (pure a : Command ε α).run tr (.done (.ok b))) :
    tr = [] ∧ b = a := by
  obtain ⟨rfl, h | h⟩ := Runs.ret_inv h
  · cases h
    exact ⟨rfl, rfl⟩
  · cases h

theorem tell_ok {c : CliCall} {a : c.Ans} (h : Runs (tell c : Command ε c.Ans).run tr (.done (.ok a))) :
    tr = [⟨c, a⟩] := by
  rcases Runs.call_inv h with ⟨_, h⟩ | ⟨b, t, rfl, k⟩
  · cases h
  · obtain ⟨rfl, k | k⟩ := Runs.ret_inv k
    · cases k
      rfl
    · cases k

theorem orRaise_ok {r : Except ε' α} {a : α}
    (h : Runs (orRaise f r : Command ε α).run tr (.done (.ok a))) : tr = [] ∧ r = .ok a := by
  cases r with
  | ok b =>
    obtain ⟨rfl, rfl⟩ := returned_inv h
    exact ⟨rfl, rfl⟩
  | error e => obtain ⟨_, h | h⟩ := Runs.ret_inv h <;> cases h

theorem orRaise_only {A : CliCall → Prop} {r : Except ε' α} :
    Only A (orRaise f r : Command ε α).run := by
  cases r <;> trivial

/-- a call of a command that is a call of its client, or of its session -/
theorem raised_ok {q : Prog cliHost (Except ε' α)} {a : α}
    (h : Runs (ExceptT.lift q >>= orRaise f : Command ε α).run low (.done (.ok a))) :
    Runs q low (.done (.ok a)) := by
  rw [lift_bind] at h
  obtain ⟨r, t, u, rfl, hq, hr⟩ := h.bind_done
  obtain ⟨rfl, rfl⟩ := orRaise_ok hr
  rw [List.append_nil]
  exact hq

theorem onHost_ok {g : AuthError → ε} {p : LoginM α} {a : α}
    (h : Runs (onHost g p).run low (.done (.ok a))) :
    ∃ tr, low = tr.map Event.ofHost ∧ Runs p.run tr (.done (.ok a)) :=
  Runs.renamed_done (f := Event.ofHost) (fun c a t hc => perform_done hc) (raised_ok h)

theorem onSession_ok {p : ExceptT ε' (Prog sessionHost) α} {a : α}
    (h : Runs (onSession f p).run low (.done (.ok a))) :
    ∃ tr, low = tr.map Event.onCli ∧ Runs p.run tr (.done (.ok a)) :=
  Runs.renamed_done (f := Event.onCli) (fun c a t hc => perform_done hc) (raised_ok h)

theorem onHost_only {A : CliCall → Prop} {g : AuthError → ε} {p : LoginM α} (hA : ∀ c, A (.host c)) :
    Only A (onHost g p).run := by
  unfold onHost
  rw [lift_bind]
  refine Only.bind (Only.handle (Only.any _) ?_) fun r => orRaise_only
  exact fun c _ => ⟨hA c, fun _ => trivial⟩

theorem onSession_only {A : CliCall → Prop} {B : SessionCall → Prop}
    {p : ExceptT ε' (Prog sessionHost) α} (hp : Only B p.run) (hA : ∀ c, B c → A (.session c)) :
    Only A (onSession f p).run := by
  unfold onSession
  rw [lift_bind]
  refine Only.bind (Only.handle hp ?_) fun r => orRaise_only
  exact fun c hc => ⟨hA c hc, fun _ => trivial⟩

theorem onSession_done {p : ExceptT ε' (Prog sessionHost) α} {r : Except ε α}
    (h : Runs (onSession f p).run low (.done r)) :
    ∃ tr r', low = tr.map Event.onCli ∧ Runs p.run tr (.done r') ∧ r = r'.mapError f := by
  unfold onSession at h
  rw [lift_bind] at h
  obtain ⟨r', t, u, rfl, hp, hr⟩ := h.bind_done
  obtain ⟨tr, rfl, hrun⟩ := Runs.renamed_done (f := Event.onCli) (fun c a t hc => perform_done hc) hp
  cases r' with
  | ok a =>
    obtain ⟨rfl, hr | hr⟩ := Runs.ret_inv hr <;> cases hr
    exact ⟨tr, .ok a, List.append_nil _, hrun, rfl⟩
  | error e =>
    obtain ⟨rfl, hr | hr⟩ := Runs.ret_inv hr <;> cases hr
    exact ⟨tr, .error e, List.append_nil _, hrun, rfl⟩

theorem performed {c : CliCall} {a : c.Ans} : Runs (Prog.perform (S := cliHost) c) [⟨c, a⟩] (.done a) :=
  .call (.ret a)

theorem onHost_runs {g : AuthError → ε} {p : LoginM α} {t : Trace host} {a : α}
    (h : Runs p.run t (.done (.ok a))) : Runs (onHost g p).run (t.map Event.ofHost) (.done (.ok a)) := by
  have hlow := (Layered.named (h := fun c => Prog.perform (S := cliHost) (.host c)) (f := Event.ofHost)
    (fun c a => performed (c := .host c)) t).runs h
  rw [onHost, lift_bind, ← List.append_nil (t.map _)]
  exact Runs.bind hlow (.ret _)

theorem onSession_runs {p : ExceptT ε' (Prog sessionHost) α} {t : Trace sessionHost} {a : α}
    (h : Runs p.run t (.done (.ok a))) : Runs (onSession f p).run (t.map Event.onCli) (.done (.ok a)) := by
  have hlow := (Layered.named (h := fun c => Prog.perform (S := cliHost) (.session c)) (f := Event.onCli)
    (fun c a => performed (c := .session c)) t).runs h
  rw [onSession, lift_bind, ← List.append_nil (t.map _)]
  exact Runs.bind hlow (.ret _)

theorem onSession_fails {p : ExceptT ε' (Prog sessionHost) α} {t : Trace sessionHost} {e : ε'}
    (h : Runs p.run t (.done (.error e))) :
    Runs (onSession f p).run (t.map Event.onCli) (.done (.error (f e))) := by
  have hlow := (Layered.named (h := fun c => Prog.perform (S := cliHost) (.session c)) (f := Event.onCli)
    (fun c a => performed (c := .session c)) t).runs h
  rw [onSession, lift_bind, ← List.append_nil (t.map _)]
  exact Runs.bind hlow (.ret _)

end

/-! ## the surroundings of a command -/

structure CliWorld where
  stores : Stores
  /-- the state behind the lock, once a session is built -/
  built : Option SessionState

/-- the calls of the client and of the terminal -/
def isAside : CliCall → Bool
  | .session _ => false
  | .build _ => false
  | _ => true

/-- a session that is built may have got other tokens by the time it is read, but no other uid -/
inductive CliServes : CliWorld → Event cliHost → CliWorld → Prop
  | session {s s' built} {c : SessionCall} {a : c.Ans} (h : Serves s ⟨c, a⟩ s') (hc : c ≠ .readState) :
      CliServes ⟨s, built⟩ ⟨.session c, a⟩ ⟨s', built⟩
  | readState (s st) {st' : SessionState} (h : st'.uid = st.uid) :
      CliServes ⟨s, some st⟩ ⟨.session .readState, st'⟩ ⟨s, some st⟩
  | build (w st) : CliServes w ⟨.build st, ()⟩ ⟨w.stores, some st⟩
  | aside (w) {e} (h : isAside e.call = true) : CliServes w e w

section
variable {w w' : CliWorld} {tr : Trace cliHost}

theorem CliServes.session_inv {c : SessionCall} {a : c.Ans} (h : CliServes w ⟨.session c, a⟩ w') :
    Serves w.stores ⟨c, a⟩ w'.stores ∧ w'.built = w.built := by
  cases h with
  | session h _ => exact ⟨h, rfl⟩
  | readState s st h => exact ⟨.other s rfl, rfl⟩
  | aside _ h => cases h

theorem CliServes.readState_inv {st' : SessionState} (h : CliServes w ⟨.session .readState, st'⟩ w') :
    ∃ st, w.built = some st ∧ st'.uid = st.uid := by
  cases h with
  | session _ hc => exact absurd rfl hc
  | readState s st h => exact ⟨st, rfl, h⟩
  | aside _ h => cases h

theorem CliServes.build_inv {st : SessionState} (h : CliServes w ⟨.build st, ()⟩ w') :
    w' = ⟨w.stores, some st⟩ := by
  cases h with
  | build => rfl
  | aside _ h => cases h

theorem CliServes.aside_inv {e : Event cliHost} (h : CliServes w e w') (he : isAside e.call = true) :
    w' = w := by
  cases h with
  | aside => rfl
  | _ => cases he

theorem served_session {tr : Trace sessionHost} (h : Path CliServes w (tr.map Event.onCli) w') :
    Path Serves w.stores tr w'.stores ∧ w'.built = w.built := by
  induction tr generalizing w with
  | nil =>
    cases h
    exact ⟨.nil _, rfl⟩
  | cons e tr ih =>
    cases h with
    | cons he hrest =>
      have he : CliServes w ⟨.session e.call, e.ans⟩ _ := he
      obtain ⟨hserves, hbuilt⟩ := he.session_inv
      obtain ⟨hpath, hlast⟩ := ih hrest
      exact ⟨.cons hserves hpath, hlast.trans hbuilt⟩

theorem served_aside (h : Path CliServes w tr w') (htr : ∀ e ∈ tr, isAside e.call = true) : w' = w := by
  induction h with
  | nil => rfl
  | cons he _ ih =>
    obtain rfl := he.aside_inv (htr _ List.mem_cons_self)
    exact ih fun e he => htr e (List.mem_cons_of_mem _ he)

theorem aside_served (htr : ∀ e ∈ tr, isAside e.call = true) : Path CliServes w tr w := by
  induction tr with
  | nil => exact .nil w
  | cons e tr ih =>
    exact .cons (.aside w (htr e List.mem_cons_self)) (ih fun e he => htr e (List.mem_cons_of_mem _ he))

theorem session_served {tr : Trace sessionHost} {s s' : Stores} {built : Option SessionState}
    (h : Path Serves s tr s') (htr : ∀ e ∈ tr, e.call ≠ .readState) :
    Path CliServes ⟨s, built⟩ (tr.map Event.onCli) ⟨s', built⟩ := by
  induction h with
  | nil s => exact .nil _
  | cons he _ ih =>
    exact .cons (.session he (htr _ List.mem_cons_self)) (ih fun e he => htr e (List.mem_cons_of_mem _ he))

/-- the document that a call writes -/
def cliWritten : CliCall → Option (Slot × Json)
  | .session c => writtenDoc c
  | _ => none

theorem CliServes.content {e : Event cliHost} {X : Slot} {doc : Json} (h : CliServes w e w')
    (hX : w'.stores.at X = some (some doc)) :
    w.stores.at X = some (some doc) ∨ cliWritten e.call = some (X, doc) := by
  cases h with
  | session h _ => exact h.content hX
  | readState s st h => exact .inl hX
  | build w st => exact .inl hX
  | aside _ h => exact .inl hX

/-- a document in the stores was there before, or was written -/
theorem served_content {X : Slot} {doc : Json} (h : Path CliServes w tr w')
    (hX : w'.stores.at X = some (some doc)) :
    w.stores.at X = some (some doc) ∨ ∃ e ∈ tr, cliWritten e.call = some (X, doc) := by
  induction h with
  | nil => exact .inl hX
  | cons he _ ih =>
    rcases ih hX with hX | ⟨e, hmem, hw⟩
    · rcases he.content hX with hX | hw
      · exact .inl hX
      · exact .inr ⟨_, List.mem_cons_self, hw⟩
    · exact .inr ⟨e, List.mem_cons_of_mem _ hmem, hw⟩

end

/-! ## the parts of a command -/

theorem orFail_only {ε α : Type} {A : SessionCall → Prop} {f : ε → SessionManagerError} {r : Except ε α} :
    Only A (orFail f r).run := by
  cases r <;> trivial

section
variable {tr : Trace cliHost}

/-- the last step of a command: a message, and the exit code -/
theorem reported {c : CliCall} {x y : ExitCode}
    (h : Runs (Prog.perform (S := cliHost) c >>= fun _ => pure x) tr (.done y)) :
    y = x ∧ ∃ a, tr = [⟨c, a⟩] := by
  rcases Runs.call_inv h with ⟨_, ho⟩ | ⟨a, t, rfl, k⟩
  · cases ho
  · obtain ⟨rfl, ho | ho⟩ := Runs.ret_inv k
    · cases ho
      exact ⟨rfl, a, rfl⟩
    · cases ho

end

end ProtonDrive
