import ProtonDrive.App.Http
import ProtonDrive.Lib.Layers

/-!
# The core over the clients (`pdtui`, `app.rs`)

`build_client_with_session` hands the core a `SessionAwareHttpClient` over a `ReqwestHttpClient`:

* `AppCall`          what is then left to the host: the calls of the core that are no requests, and those of
                     the two clients;
* `overClients`      how the calls of the core are carried out;
* `deployed`         a program of the core, with its requests carried out so;
* `onStack_renamed`, `onWire_renamed`
                     the calls of the clients keep their answers.
-/

set_option linter.unusedVariables false

namespace ProtonDrive
open Effects

inductive AppCall where
  | core (c : HostCall)
  | stack (c : StackCall)

def AppCall.Ans : AppCall → Type
  | .core c => c.Ans
  | .stack c => c.Ans

abbrev appHost : Sig := { Call := AppCall, Ans := AppCall.Ans }

def onStack {α : Type} (p : Prog stackHost α) : Prog appHost α :=
  p.handle fun c => Prog.perform (S := appHost) (.stack c)

section
variable (K : Crates) (client : ReqwestHttpClient)

def overClients : (c : HostCall) → Prog appHost c.Ans
  | .requestJson req => onStack (stackedJson K client req)
  | .requestBlob req => onStack (stackedBlob K client req)
  | c => Prog.perform (S := appHost) (.core c)

def deployed {α : Type} (p : Sdk α) : Prog appHost (Except Fault α) := p.run.handle (overClients K client)

end

/-! ## every call has an answer -/

theorem host_answers (c : HostCall) : Nonempty c.Ans := by
  cases c with
  | requestJson req => exact ⟨.error (.network "")⟩
  | requestBlob req => exact ⟨.error (.network "")⟩
  | coins => exact ⟨(0 : Nat)⟩
  | read cap => exact ⟨.error ""⟩
  | isCancelled token => exact ⟨false⟩
  | sendProgress bytes => exact ⟨()⟩
  | createFile path => exact ⟨.ok ()⟩
  | writeAll data => exact ⟨.ok ()⟩
  | flush => exact ⟨.ok ()⟩
  | onEvent ev => exact ⟨()⟩
  | providerGet => exact ⟨.ok none⟩
  | providerSet eventId => exact ⟨.ok ()⟩
  | sleepOrCancelled secs => exact ⟨false⟩

theorem session_answers (c : SessionCall) : Nonempty c.Ans := by
  cases c with
  | requestJson req => exact ⟨.error (.network "")⟩
  | requestBlob req => exact ⟨.error (.network "")⟩
  | now => exact ⟨(0 : Nat)⟩
  | unixNow => exact ⟨(0 : Nat)⟩
  | sleepUntil instant => exact ⟨()⟩
  | readState => exact ⟨⟨"", "", "", "", 0⟩⟩
  | acquire => exact ⟨⟨"", "", "", "", 0⟩⟩
  | replace st => exact ⟨()⟩
  | release => exact ⟨()⟩
  | setKeyring uid doc => exact ⟨.ok ()⟩
  | getKeyring uid => exact ⟨.ok none⟩
  | deleteKeyring uid => exact ⟨.ok ()⟩
  | writeFile path doc => exact ⟨.ok ()⟩
  | truncateFile path => exact ⟨.ok ()⟩
  | readFile path => exact ⟨.ok none⟩
  | fileExists path => exact ⟨false⟩
  | removeFile path => exact ⟨.ok ()⟩

theorem wire_answers (c : WireCall) : Nonempty c.Ans := by
  cases c with
  | send wire => exact ⟨.error (.other "")⟩
  | jitter below => exact ⟨(0 : Nat)⟩
  | sleepMillis ms => exact ⟨()⟩

theorem stack_answers (c : StackCall) : Nonempty c.Ans := by
  cases c with
  | session c => exact session_answers c
  | wire c => exact wire_answers c

/-! ## names of calls -/

theorem perform_runs {S : Sig} {c : S.Call} {t : Trace S} {o : Outcome (S.Ans c)}
    (h : Runs (Prog.perform c) t o) : t = [] ∨ ∃ a, t = [⟨c, a⟩] := by
  rcases Runs.call_inv h with ⟨rfl, _⟩ | ⟨a, t', rfl, h'⟩
  · exact .inl rfl
  · obtain ⟨rfl, _⟩ := Runs.ret_inv h'
    exact .inr ⟨a, rfl⟩

theorem perform_done {S : Sig} {c : S.Call} {t : Trace S} {a : S.Ans c}
    (h : Runs (Prog.perform c) t (.done a)) : t = [⟨c, a⟩] := by
  rcases Runs.call_inv h with ⟨_, ho⟩ | ⟨a', t', rfl, h'⟩
  · cases ho
  · obtain ⟨rfl, ho | ho⟩ := Runs.ret_inv h'
    · cases ho
      rfl
    · cases ho

def Event.onStack (e : Event stackHost) : Event appHost := ⟨.stack e.call, e.ans⟩

def Event.onWire (e : Event wireHost) : Event stackHost := ⟨.wire e.call, e.ans⟩

theorem onStack_renamed {α : Type} {p : Prog stackHost α} {low : Trace appHost} {o : Outcome α}
    (h : Runs (onStack p) low o) : ∃ tr, low = tr.map Event.onStack ∧ Runs p tr .running :=
  Runs.renamed (f := Event.onStack) stack_answers (fun c t o hc => perform_runs hc)
    (fun c a t hc => perform_done hc) h

theorem onWire_done {α : Type} {p : Wire α} {low : Trace stackHost} {r : Except Error α}
    (h : Runs (onWire p) low (.done r)) : ∃ tr, low = tr.map Event.onWire ∧ Runs p.run tr (.done r) :=
  Runs.renamed_done (f := Event.onWire) (fun c a t hc => perform_done hc) h

theorem onWire_renamed {α : Type} {p : Wire α} {low : Trace stackHost} {o : Outcome (Except Error α)}
    (h : Runs (onWire p) low o) : ∃ tr, low = tr.map Event.onWire ∧ Runs p.run tr .running :=
  Runs.renamed (f := Event.onWire) wire_answers (fun c t o hc => perform_runs hc)
    (fun c a t hc => perform_done hc) h

end ProtonDrive
