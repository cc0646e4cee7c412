import ProtonDrive.Core.Traces

/-!
# Programs run against a server

`Gives serve p Q bs` says that `p`, run against the server `serve`, returns a value with `Q` and writes
`bs`, whatever happened before.  It composes along `>>=`.
-/

set_option linter.unusedVariables false

namespace ProtonDrive
open Encoding Effects Api

/-- the answer is an envelope around `a` -/
def Answered (K : Crates) {α : Type} (dec : Json → Option α) (ans : Except Error JsonResponse) (a : α) :
    Prop :=
  ∃ resp, ans = .ok resp ∧ K.Envelopes dec resp.body a

/-- whatever happened before, the program returns a value with `Q` and writes `bs` -/
def Gives (serve : Trace host → (c : HostCall) → c.Ans) {α : Type} (p : Sdk α) (Q : α → Prop)
    (bs : Bytes) : Prop :=
  ∀ h, ∃ tr a, Yields serve h p tr a ∧ written tr = bs ∧ Q a

namespace Gives
variable {serve : Trace host → (c : HostCall) → c.Ans} {α β : Type} {Q : β → Prop}

theorem pure {a : β} (h : Q a) : Gives serve (Pure.pure a) Q [] := fun _ => ⟨[], a, .pure a, rfl, h⟩

theorem bind {p : Sdk α} {f : α → Sdk β} {bs cs : Bytes} {P : α → Prop} (hp : Gives serve p P bs)
    (hf : ∀ a, P a → Gives serve (f a) Q cs) : Gives serve (p >>= f) Q (bs ++ cs) := by
  intro h
  obtain ⟨t, a, hy, rfl, ha⟩ := hp h
  obtain ⟨u, b, hy', rfl, hb⟩ := hf a ha (h ++ t)
  exact ⟨t ++ u, b, hy.bind hy', written_append t u, hb⟩

/-- a step that writes nothing -/
theorem silentThen {p : Sdk α} {f : α → Sdk β} {cs : Bytes} {a : α} (hp : Gives serve p (· = a) [])
    (hf : Gives serve (f a) Q cs) : Gives serve (p >>= f) Q cs :=
  hp.bind fun b hb => by rw [hb]; exact hf

theorem thenSilent {p : Sdk α} {f : α → Sdk β} {bs : Bytes} {P : α → Prop} (hp : Gives serve p P bs)
    (hf : ∀ a, P a → Gives serve (f a) Q []) : Gives serve (p >>= f) Q bs := by
  have h := hp.bind hf
  rw [List.append_nil] at h
  exact h

theorem ofExcept {ε : Type} {f : ε → Error} {r : Except ε α} {a : α} (h : r = .ok a) :
    Gives serve (ProtonDrive.ofExcept f r) (· = a) [] := by
  subst h
  exact .pure rfl

theorem require {ok : Bool} {e : Error} (h : ok = true) :
    Gives serve (ProtonDrive.require ok e) (· = ()) [] := by
  subst h
  exact .pure rfl

theorem call {c : HostCall} {a : c.Ans} (h : ∀ h, serve h c = a) :
    Gives serve (ProtonDrive.call c) (· = a) (writtenBy ⟨c, a⟩) := by
  intro t
  refine ⟨[⟨c, serve t c⟩], serve t c, rfl, ?_, h t⟩
  rw [h t]
  exact List.append_nil _

theorem requestJson {req : JsonRequest} {P : JsonResponse → Prop}
    (h : ∀ h, ∃ resp, serve h (.requestJson req) = .ok resp ∧ P resp) :
    Gives serve (ProtonDrive.requestJson req) P [] := by
  intro t
  obtain ⟨resp, hresp, hP⟩ := h t
  refine ⟨[⟨.requestJson req, serve t (.requestJson req)⟩], resp, ?_, rfl, hP⟩
  have hcall : Yields serve t (ProtonDrive.call (.requestJson req)) [⟨.requestJson req, .ok resp⟩]
      (.ok resp) := by
    rw [← hresp]
    rfl
  rw [hresp]
  exact hcall.bind (.pure resp)

theorem requestBlob {req : BlobRequest} {P : JsonResponse → Prop}
    (h : ∀ h, ∃ resp, serve h (.requestBlob req) = .ok resp ∧ P resp) :
    Gives serve (ProtonDrive.requestBlob req) P [] := by
  intro t
  obtain ⟨resp, hresp, hP⟩ := h t
  refine ⟨[⟨.requestBlob req, serve t (.requestBlob req)⟩], resp, ?_, rfl, hP⟩
  have hcall : Yields serve t (ProtonDrive.call (.requestBlob req)) [⟨.requestBlob req, .ok resp⟩]
      (.ok resp) := by
    rw [← hresp]
    rfl
  rw [hresp]
  exact hcall.bind (.pure resp)

theorem getJsonOr {codeError : Nat → Option String → Error} {K : Crates} {what type : String}
    {dec : Json → Option α} {path : String} {a : α}
    (h : ∀ h, Answered K dec (serve h (.requestJson (.bare .get path none))) a) :
    Gives serve (ProtonDrive.getJsonOr codeError K what type dec path) (· = a) [] := by
  refine Gives.bind (Gives.requestJson h) fun resp henv => ?_
  obtain ⟨error, henv⟩ := henv
  refine (Gives.ofExcept (fromSlice_of_some henv)).silentThen ?_
  exact (Gives.require (decide_eq_true rfl)).silentThen (.pure rfl)

end Gives

end ProtonDrive
