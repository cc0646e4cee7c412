import ProtonDrive.Core.Host
import ProtonDrive.Api.Dto

/-!
# The steps programs of the core are made of

* `call`, `requestJson`, `requestBlob`, `random`, `ofExcept`, `require`
                      one call, one HTTP request, one randomised crypto operation, a fallible
                      computation and a check, each with the lemma that says what a run of it that
                      returned looks like;
* `getJsonOr`, `getJson`
                      a `GET` answered by an enveloped record;
* `parseOrSnip`       the parse that quotes the body in its error; `bodySnippet` can panic.
-/

set_option linter.unusedVariables false

namespace ProtonDrive
open Encoding Effects Api

/-! ## single steps -/

def call (c : HostCall) : Sdk c.Ans := ExceptT.lift (Prog.perform (S := host) c)

def fail {α : Type} (e : Error) : Sdk α := throw (Fault.error e)

def ofExcept {ε α : Type} (f : ε → Error) : Except ε α → Sdk α
  | .ok a => pure a
  | .error e => fail (f e)

/-- `if !ok { return Err(e) }` -/
def require (ok : Bool) (e : Error) : Sdk Unit := if ok then pure () else fail e

def requestJson (req : JsonRequest) : Sdk JsonResponse := do
  let r ← call (.requestJson req)
  ofExcept id r

def requestBlob (req : BlobRequest) : Sdk JsonResponse := do
  let r ← call (.requestBlob req)
  ofExcept id r

def random {α : Type} (op : Coins → Except CryptoError α) : Sdk α := do
  let c ← call .coins
  ofExcept .crypto (op c)

section
variable {tr : Trace host}

theorem pure_ok {ε α : Type} {a b : α}
    (h : Runs (pure a : ExceptT ε (Prog host) α).run tr (.done (.ok b))) : tr = [] ∧ b = a := by
  obtain ⟨rfl, h | h⟩ := Runs.ret_inv h
  · cases h
    exact ⟨rfl, rfl⟩
  · cases h

theorem fail_ok {α : Type} {e : Error} {a : α} :
    ¬ Runs (fail e : Sdk α).run tr (.done (.ok a)) := by
  intro h
  obtain ⟨rfl, h | h⟩ := Runs.ret_inv h
  · cases h
  · cases h

theorem perform_ok {ε : Type} {c : HostCall} {a : c.Ans}
    (h : Runs (ExceptT.lift (Prog.perform (S := host) c) : ExceptT ε (Prog host) c.Ans).run tr
      (.done (.ok a))) : tr = [⟨c, a⟩] := by
  rcases Runs.call_inv h with ⟨_, h⟩ | ⟨b, tr', rfl, h'⟩
  · cases h
  · obtain ⟨rfl, h' | h'⟩ := Runs.ret_inv h'
    · cases h'
      rfl
    · cases h'

theorem call_ok {c : HostCall} {a : c.Ans} (h : Runs (call c).run tr (.done (.ok a))) :
    tr = [⟨c, a⟩] := perform_ok h

theorem ofExcept_ok {ε α : Type} {f : ε → Error} {r : Except ε α} {a : α}
    (h : Runs (ofExcept f r).run tr (.done (.ok a))) : tr = [] ∧ r = .ok a := by
  cases r with
  | ok b =>
    obtain ⟨rfl, rfl⟩ := pure_ok h
    exact ⟨rfl, rfl⟩
  | error e => exact absurd h fail_ok

theorem ofExcept_fault {ε α : Type} {f : ε → Error} {r : Except ε α} {e : Fault}
    (h : Runs (ofExcept f r).run tr (.done (.error e))) :
    tr = [] ∧ ∃ e', r = .error e' ∧ e = .error (f e') := by
  cases r with
  | ok a => obtain ⟨_, h | h⟩ := Runs.ret_inv h <;> cases h
  | error e' =>
    obtain ⟨rfl, h | h⟩ := Runs.ret_inv h
    · cases h
      exact ⟨rfl, e', rfl, rfl⟩
    · cases h

theorem require_ok {ok : Bool} {e : Error} {u : Unit}
    (h : Runs (require ok e).run tr (.done (.ok u))) : tr = [] ∧ ok = true := by
  cases ok with
  | true => exact ⟨(pure_ok h).1, rfl⟩
  | false => exact absurd h fail_ok

theorem require_runs {ok : Bool} {e : Error} (h : ok = true) :
    Runs (require ok e).run [] (.done (.ok ())) := by
  rw [h]
  exact .ret _

theorem ofExcept_runs {ε α : Type} {f : ε → Error} {r : Except ε α} {a : α} (h : r = .ok a) :
    Runs (ofExcept f r).run [] (.done (.ok a)) := by
  rw [h]
  exact .ret _

theorem require_fault {ok : Bool} {e : Error} {f : Fault}
    (h : Runs (require ok e).run tr (.done (.error f))) :
    tr = [] ∧ ok = false ∧ f = .error e := by
  cases ok with
  | true => obtain ⟨_, h | h⟩ := Runs.ret_inv h <;> cases h
  | false =>
    obtain ⟨rfl, h | h⟩ := Runs.ret_inv h
    · cases h
      exact ⟨rfl, rfl, rfl⟩
    · cases h

/-- a check that has not passed is not over or has failed -/
theorem require_aborts {ok : Bool} {e : Error} {o : Outcome (Except Fault Unit)} {β : Type}
    {o' : Outcome (Except Fault β)} (h : Runs (require ok e).run tr o)
    (ho : Outcome.Aborts o o') : tr = [] ∧
      (o' = .running ∨ ok = false ∧ o' = .done (.error (.error e))) := by
  cases ok with
  | true =>
    obtain ⟨rfl, rfl | rfl⟩ := Runs.ret_inv h
    · exact absurd ho Outcome.Aborts.src_not_ok
    · exact ⟨rfl, .inl ho.of_running⟩
  | false =>
    obtain ⟨rfl, rfl | rfl⟩ := Runs.ret_inv h
    · exact ⟨rfl, .inr ⟨rfl, ho.of_error⟩⟩
    · exact ⟨rfl, .inl ho.of_running⟩

/-- however it is observed, a call is not answered yet or is the whole trace -/
theorem call_runs {c : HostCall} {o : Outcome (Except Fault c.Ans)} (h : Runs (call c).run tr o) :
    tr = [] ∨ ∃ a, tr = [⟨c, a⟩] := by
  rcases Runs.call_inv h with ⟨rfl, _⟩ | ⟨a, tr', rfl, hk⟩
  · exact .inl rfl
  · obtain ⟨rfl, _⟩ := Runs.ret_inv hk
    exact .inr ⟨a, rfl⟩

theorem call_not_error {c : HostCall} {f : Fault} : ¬ Runs (call c).run tr (.done (.error f)) := by
  intro h
  rcases Runs.call_inv h with ⟨_, h⟩ | ⟨a, tr', rfl, hk⟩
  · cases h
  · obtain ⟨_, hk | hk⟩ := Runs.ret_inv hk <;> cases hk

/-- a program that can make no call -/
theorem within_silent {α : Type} {p : Sdk α} {o : Outcome (Except Fault α)} {Q : Fault → Prop}
    (hp : Within (S := host) (fun _ => False) Q p) (h : Runs p.run tr o) : tr = [] :=
  List.eq_nil_iff_forall_not_mem.mpr fun e he => h.only hp.1 e he

/-- a call that has not been answered yet leaves the program running -/
theorem call_aborts {c : HostCall} {o : Outcome (Except Fault c.Ans)} {β : Type}
    {o' : Outcome (Except Fault β)} (h : Runs (call c).run tr o) (ho : Outcome.Aborts o o') :
    o' = .running := by
  rcases Runs.call_inv h with ⟨_, rfl⟩ | ⟨a, tr', _, hk⟩
  · exact ho.of_running
  · obtain ⟨_, rfl | rfl⟩ := Runs.ret_inv hk
    · exact absurd ho Outcome.Aborts.src_not_ok
    · exact ho.of_running

theorem requestJson_fault {req : JsonRequest} {f : Fault}
    (h : Runs (requestJson req).run tr (.done (.error f))) :
    ∃ e, tr = [⟨.requestJson req, .error e⟩] ∧ f = .error e := by
  rcases h.bindE_error with ⟨r, t, u, rfl, h₁, hk⟩ | h₁
  · obtain rfl := call_ok h₁
    match r, hk with
    | .ok resp, hk => obtain ⟨_, hk | hk⟩ := Runs.ret_inv hk <;> cases hk
    | .error e, hk =>
      obtain ⟨rfl, hk | hk⟩ := Runs.ret_inv hk
      · cases hk
        exact ⟨e, rfl, rfl⟩
      · cases hk
  · rcases Runs.call_inv h₁ with ⟨_, h⟩ | ⟨b, tr', rfl, hk⟩
    · cases h
    · obtain ⟨_, hk | hk⟩ := Runs.ret_inv hk <;> cases hk

theorem requestJson_ok {req : JsonRequest} {resp : JsonResponse}
    (h : Runs (requestJson req).run tr (.done (.ok resp))) :
    tr = [⟨.requestJson req, .ok resp⟩] := by
  obtain ⟨r, tr₁, tr₂, rfl, h₁, h₂⟩ := h.bindE_ok
  obtain ⟨rfl, rfl⟩ := ofExcept_ok h₂
  rw [List.append_nil]
  exact call_ok h₁

theorem requestBlob_ok {req : BlobRequest} {resp : JsonResponse}
    (h : Runs (requestBlob req).run tr (.done (.ok resp))) :
    tr = [⟨.requestBlob req, .ok resp⟩] := by
  obtain ⟨r, tr₁, tr₂, rfl, h₁, h₂⟩ := h.bindE_ok
  obtain ⟨rfl, rfl⟩ := ofExcept_ok h₂
  rw [List.append_nil]
  exact call_ok h₁

theorem random_ok {α : Type} {op : Coins → Except CryptoError α} {a : α}
    (h : Runs (random op).run tr (.done (.ok a))) :
    ∃ c : Coins, tr = [⟨.coins, c⟩] ∧ op c = .ok a := by
  obtain ⟨c, tr₁, tr₂, rfl, h₁, h₂⟩ := h.bindE_ok
  obtain ⟨rfl, hc⟩ := ofExcept_ok h₂
  rw [List.append_nil]
  exact ⟨c, call_ok h₁, hc⟩

end

/-! ## the calls and faults of a step -/

section
variable {A : HostCall → Prop} {Q : Fault → Prop}

theorem within_call {c : HostCall} (h : A c) : Within (S := host) A Q (call c) := Within.perform h

variable (hQ : ∀ e, Q (.error e))
include hQ

theorem within_fail {α : Type} (e : Error) : Within (S := host) A Q (fail e : Sdk α) :=
  Within.throw (hQ e)

theorem within_ofExcept {ε α : Type} (f : ε → Error) (r : Except ε α) :
    Within (S := host) A Q (ofExcept f r) := by
  cases r with
  | ok a => exact Within.pure a
  | error e => exact within_fail hQ (f e)

theorem within_require (ok : Bool) (e : Error) : Within (S := host) A Q (require ok e) := by
  cases ok with
  | true => exact Within.pure ()
  | false => exact within_fail hQ e

theorem within_requestJson {req : JsonRequest} (h : A (.requestJson req)) :
    Within (S := host) A Q (requestJson req) :=
  Within.bind (within_call h) fun _ => within_ofExcept hQ _ _

theorem within_requestBlob {req : BlobRequest} (h : A (.requestBlob req)) :
    Within (S := host) A Q (requestBlob req) :=
  Within.bind (within_call h) fun _ => within_ofExcept hQ _ _

theorem within_random {α : Type} (h : A .coins) (op : Coins → Except CryptoError α) :
    Within (S := host) A Q (random op) :=
  Within.bind (within_call h) fun _ => within_ofExcept hQ _ _

end

/-! ## checks make no call -/

section
variable {A : HostCall → Prop} {tr : Trace host}

theorem only_require (ok : Bool) (e : Error) : Only (S := host) A (require ok e).run :=
  (within_require (Q := fun _ => True) (fun _ => trivial) ok e).1

theorem only_ofExcept {ε α : Type} (f : ε → Error) (r : Except ε α) :
    Only (S := host) A (ofExcept f r).run :=
  (within_ofExcept (Q := fun _ => True) (fun _ => trivial) f r).1

theorem require_silent {ok : Bool} {e : Error} {o : Outcome (Except Fault Unit)}
    (h : Runs (require ok e).run tr o) : tr = [] :=
  within_silent (Q := fun _ => True) (within_require (fun _ => trivial) ok e) h

theorem ofExcept_silent {ε α : Type} {f : ε → Error} {r : Except ε α}
    {o : Outcome (Except Fault α)} (h : Runs (ofExcept f r).run tr o) : tr = [] :=
  within_silent (Q := fun _ => True) (within_ofExcept (fun _ => trivial) f r) h

end

/-! ## enveloped answers -/

/-- the Proton API returns `Code` ≠ 1000 for known error conditions -/
def mapApiError (code : Nat) (message : Option String) : Error :=
  let msg := message.getD ("API error " ++ toString code)
  if code = 2501 then .notFound msg
  else if code = 2011 then .nodeWithSameNameExists msg
  else .internal msg

/-- `GET path`, the answer an enveloped record; `what` begins the text of a parse error, `codeError`
is the error for a `Code` that is not 1000 -/
def getJsonOr (codeError : Nat → Option String → Error) (K : Crates) {α : Type}
    (what type : String) (dec : Json → Option α) (path : String) : Sdk α := do
  let resp ← requestJson (.bare .get path none)
  let env ← ofExcept (fun e => .internal (what ++ ": " ++ e))
    (K.fromSlice ("ResponseEnvelope<" ++ type ++ ">") (ResponseEnvelope.ofJson dec) resp.body)
  require (env.code = CODE_OK) (codeError env.code env.error)
  return env.inner

/-- `getJsonOr` with the error table of `error.rs` -/
def getJson (K : Crates) {α : Type} (what type : String) (dec : Json → Option α) (path : String) :
    Sdk α := getJsonOr mapApiError K what type dec path

/-- the body is an envelope with code 1000 around `a` -/
def Crates.Envelopes (K : Crates) {α : Type} (dec : Json → Option α) (body : Bytes) (a : α) : Prop :=
  ∃ error, (K.jsonParse body).bind (ResponseEnvelope.ofJson dec) =
    some { code := CODE_OK, inner := a, error := error }

theorem fromSlice_ok {K : Crates} {α : Type} {type : String} {dec : Json → Option α} {bs : Bytes}
    {a : α} (h : K.fromSlice type dec bs = .ok a) : (K.jsonParse bs).bind dec = some a := by
  unfold Crates.fromSlice at h
  split at h
  · next ha => cases h; exact ha
  · cases h

theorem fromSlice_of_some {K : Crates} {α : Type} {type : String} {dec : Json → Option α}
    {bs : Bytes} {a : α} (h : (K.jsonParse bs).bind dec = some a) :
    K.fromSlice type dec bs = .ok a := by
  unfold Crates.fromSlice
  rw [h]

theorem envelopes_unique {K : Crates} {α : Type} {dec : Json → Option α} {body : Bytes} {a b : α}
    (ha : K.Envelopes dec body a) (hb : K.Envelopes dec body b) : a = b := by
  obtain ⟨e, he⟩ := ha
  obtain ⟨e', he'⟩ := hb
  rw [he] at he'
  cases he'
  rfl

theorem getJsonOr_ok {codeError : Nat → Option String → Error} {K : Crates} {α : Type}
    {what type : String} {dec : Json → Option α} {path : String} {a : α} {tr : Trace host}
    (h : Runs (getJsonOr codeError K what type dec path).run tr (.done (.ok a))) :
    ∃ resp, tr = [⟨.requestJson (.bare .get path none), .ok resp⟩] ∧
      K.Envelopes dec resp.body a := by
  obtain ⟨resp, t₁, t₂, rfl, h₁, h⟩ := h.bindE_ok
  obtain ⟨env, t₃, t₄, rfl, h₂, h⟩ := h.bindE_ok
  obtain ⟨_, t₅, t₆, rfl, h₃, h⟩ := h.bindE_ok
  obtain ⟨rfl, rfl⟩ := pure_ok h
  obtain ⟨rfl, hcode⟩ := require_ok h₃
  obtain ⟨rfl, henv⟩ := ofExcept_ok h₂
  have hcode : env.code = CODE_OK := of_decide_eq_true hcode
  refine ⟨resp, by simpa using requestJson_ok h₁, env.error, ?_⟩
  rw [fromSlice_ok henv, ← hcode]

theorem getJsonOr_runs {codeError : Nat → Option String → Error} {K : Crates} {α : Type}
    {what type : String} {dec : Json → Option α} {path : String} {a : α} {resp : JsonResponse}
    (h : K.Envelopes dec resp.body a) :
    Runs (getJsonOr codeError K what type dec path).run
      [⟨.requestJson (.bare .get path none), .ok resp⟩] (.done (.ok a)) := by
  obtain ⟨error, henv⟩ := h
  have hrest : Runs (ofExcept (fun e => Error.internal (what ++ ": " ++ e))
      (K.fromSlice ("ResponseEnvelope<" ++ type ++ ">") (ResponseEnvelope.ofJson dec) resp.body) >>=
        fun env => require (env.code = CODE_OK) (codeError env.code env.error) >>= fun _ =>
          pure env.inner : Sdk α).run [] (.done (.ok a)) := by
    rw [fromSlice_of_some henv]
    exact .ret _
  exact Runs.bindE_one (.call (.ret _)) hrest

theorem getJson_ok {K : Crates} {α : Type} {what type : String} {dec : Json → Option α}
    {path : String} {a : α} {tr : Trace host}
    (h : Runs (getJson K what type dec path).run tr (.done (.ok a))) :
    ∃ resp, tr = [⟨.requestJson (.bare .get path none), .ok resp⟩] ∧
      K.Envelopes dec resp.body a := getJsonOr_ok h

theorem within_getJsonOr {A : HostCall → Prop} {Q : Fault → Prop} (hQ : ∀ e, Q (.error e))
    {codeError : Nat → Option String → Error} {K : Crates} {α : Type} {what type : String}
    {dec : Json → Option α} {path : String} (h : A (.requestJson (.bare .get path none))) :
    Within (S := host) A Q (getJsonOr codeError K what type dec path) := by
  refine Within.bind (within_requestJson hQ h) fun _ => ?_
  refine Within.bind (within_ofExcept hQ _ _) fun _ => ?_
  refine Within.bind (within_require hQ _ _) fun _ => ?_
  exact Within.pure _

theorem within_getJson {A : HostCall → Prop} {Q : Fault → Prop} (hQ : ∀ e, Q (.error e))
    {K : Crates} {α : Type} {what type : String} {dec : Json → Option α} {path : String}
    (h : A (.requestJson (.bare .get path none))) :
    Within (S := host) A Q (getJson K what type dec path) := within_getJsonOr hQ h

theorem ofExcept_atMost {ε α : Type} (f : ε → Error) (r : Except ε α) : AtMost (ofExcept f r).run 0 := by
  cases r <;> trivial

theorem require_atMost (ok : Bool) (e : Error) : AtMost (require ok e).run 0 := by
  cases ok <;> trivial

theorem requestJson_atMost (req : JsonRequest) : AtMost (requestJson req).run 1 :=
  AtMost.bindE (m := 1) (n := 0) (fun _ => trivial) fun _ => ofExcept_atMost _ _

theorem getJsonOr_atMost {codeError : Nat → Option String → Error} {K : Crates} {α : Type}
    {what type : String} {dec : Json → Option α} (path : String) :
    AtMost (getJsonOr codeError K what type dec path).run 1 := by
  refine AtMost.bindE (n := 0) (requestJson_atMost _) fun _ => ?_
  refine AtMost.bindE (m := 0) (n := 0) (ofExcept_atMost _ _) fun _ => ?_
  exact AtMost.bindE (m := 0) (n := 0) (require_atMost _ _) fun _ => trivial

theorem getJson_atMost {K : Crates} {α : Type} {what type : String} {dec : Json → Option α}
    (path : String) : AtMost (getJson K what type dec path).run 1 := getJsonOr_atMost path

/-! ## answers that are probed first -/

/-- the bytes of the first character of `bs`, or of the longest beginning of one, and whether it is
one -/
def utf8Chunk : Bytes → Nat × Bool
  | [] => (0, true)
  | a :: rest =>
    let a := a.toNat
    let at? (i lo hi : Nat) : Bool := (rest[i]?).any fun b => lo ≤ b.toNat ∧ b.toNat ≤ hi
    let cont (i : Nat) : Bool := at? i 0x80 0xBF
    if a < 0x80 then (1, true)
    else if 0xC2 ≤ a ∧ a ≤ 0xDF then if cont 0 then (2, true) else (1, false)
    else if 0xE0 ≤ a ∧ a ≤ 0xEF then
      if at? 0 (if a = 0xE0 then 0xA0 else 0x80) (if a = 0xED then 0x9F else 0xBF) then
        if cont 1 then (3, true) else (2, false)
      else (1, false)
    else if 0xF0 ≤ a ∧ a ≤ 0xF4 then
      if at? 0 (if a = 0xF0 then 0x90 else 0x80) (if a = 0xF4 then 0x8F else 0xBF) then
        if cont 1 then if cont 2 then (4, true) else (3, false) else (2, false)
      else (1, false)
    else (1, false)

/-- the UTF-8 bytes of `String::from_utf8_lossy`: U+FFFD stands for what is no character -/
def lossyBytes : Nat → Bytes → Bytes
  | 0, _ => []
  | _ + 1, [] => []
  | fuel + 1, bs =>
    let c := utf8Chunk bs
    (if c.2 then bs.take c.1 else [0xEF, 0xBF, 0xBD]) ++ lossyBytes fuel (bs.drop c.1)

def fromUtf8Lossy (bs : Bytes) : Bytes := lossyBytes bs.length bs

def SNIPPET_MAX : Nat := 512

/-- `str::is_char_boundary`: the byte at `i` does not continue a character -/
def isCharBoundary (text : Bytes) (i : Nat) : Bool :=
  match text[i]? with
  | some b => !(0x80 ≤ b.toNat ∧ b.toNat ≤ 0xBF)
  | none => i = text.length

/-- the truncated, lossy view of a body for an error; `none` where the slice `&text[..MAX]` panics
because it cuts a character -/
def bodySnippet (body : Bytes) : Option String :=
  let text := fromUtf8Lossy body
  if text.length > SNIPPET_MAX then
    if isCharBoundary text SNIPPET_MAX then
      some ((fromUtf8 (text.take SNIPPET_MAX)).getD "" ++ "…")
    else none
  else some ((fromUtf8 text).getD "")

/-- `from_slice(body).map_err(|e| Error::Internal(format!("{what}: {e}; body{sep}{snippet}")))` -/
def parseOrSnip (K : Crates) {α : Type} (what sep type : String) (dec : Json → Option α)
    (body : Bytes) : Sdk α :=
  match K.fromSlice type dec body with
  | .ok a => pure a
  | .error e =>
    match bodySnippet body with
    | some snippet => fail (.internal (what ++ ": " ++ e ++ "; body" ++ sep ++ snippet))
    | none => throw (.panicked "byte index 512 is not a char boundary")

theorem parseOrSnip_ok {K : Crates} {α : Type} {what sep type : String} {dec : Json → Option α}
    {body : Bytes} {a : α} {tr : Trace host}
    (h : Runs (parseOrSnip K what sep type dec body).run tr (.done (.ok a))) :
    tr = [] ∧ (K.jsonParse body).bind dec = some a := by
  unfold parseOrSnip at h
  split at h
  · next ha =>
    obtain ⟨rfl, rfl⟩ := pure_ok h
    exact ⟨rfl, fromSlice_ok ha⟩
  · split at h
    · exact absurd h fail_ok
    · obtain ⟨_, h | h⟩ := Runs.ret_inv h <;> cases h

theorem within_parseOrSnip {A : HostCall → Prop} {Q : Fault → Prop} (hQ : ∀ f, Q f) {K : Crates}
    {α : Type} {what sep type : String} {dec : Json → Option α} {body : Bytes} :
    Within (S := host) A Q (parseOrSnip K what sep type dec body) := by
  unfold parseOrSnip
  split
  · exact Within.pure _
  · split
    · exact Within.throw (hQ _)
    · exact Within.throw (hQ _)

/-- the part of an envelope that is there in error answers too -/
structure EnvelopeProbe where
  code : Nat
  error : Option String

/-- the probe of an answer that is an object -/
def EnvelopeProbe.ofMembers (j : Json) : Option EnvelopeProbe := do
  let code ← j.required Json.asU32 "Code"
  let error ← j.optional Json.asStr "Error"
  return { code, error }

def EnvelopeProbe.ofJson : Json → Option EnvelopeProbe :=
  Json.record ["Code", "Error"] 1 EnvelopeProbe.ofMembers

/-- an answer with a member `Code` is probed by its members -/
theorem EnvelopeProbe.ofJson_eq {j : Json} {code : Nat} (h : j.required Json.asU32 "Code" = some code) :
    EnvelopeProbe.ofJson j = EnvelopeProbe.ofMembers j := Json.record_of_required h

theorem EnvelopeProbe.ofJson_of_members {j : Json} {probe : EnvelopeProbe}
    (h : EnvelopeProbe.ofMembers j = some probe) : EnvelopeProbe.ofJson j = some probe := by
  have hm := h
  simp only [ofMembers, Option.bind_eq_bind, Option.bind_eq_some_iff] at hm
  obtain ⟨code, hcode, -⟩ := hm
  rw [ofJson_eq hcode, h]

theorem parseOrSnip_eq {K : Crates} {α : Type} {what sep type : String} {dec : Json → Option α}
    {bs : Bytes} {a : α} (h : (K.jsonParse bs).bind dec = some a) :
    parseOrSnip K what sep type dec bs = pure a := by
  unfold parseOrSnip
  rw [fromSlice_of_some h]

/-- an envelope is also what the probe reads -/
theorem probe_of_envelopes {K : Crates} {α : Type} {dec : Json → Option α} {bs : Bytes}
    {a : α} (h : K.Envelopes dec bs a) :
    ∃ error, (K.jsonParse bs).bind EnvelopeProbe.ofJson = some ⟨CODE_OK, error⟩ := by
  obtain ⟨error, henv⟩ := h
  refine ⟨error, ?_⟩
  cases hj : K.jsonParse bs with
  | none =>
    rw [hj] at henv
    cases henv
  | some j =>
    rw [hj] at henv
    simp only [Option.bind_some, ResponseEnvelope.ofJson, Option.bind_eq_bind,
      Option.bind_eq_some_iff, Option.pure_def, Option.some.injEq] at henv
    obtain ⟨c, hc, i, _, e, he, heq⟩ := henv
    cases heq
    simp [EnvelopeProbe.ofJson_eq hc, EnvelopeProbe.ofMembers, hc, he]

/-- `POST path body`; the answer is probed for its code before it is parsed -/
def postProbed (K : Crates) {α : Type} (probeWhat what sep type : String) (dec : Json → Option α)
    (path : String) (body : Json) : Sdk α := do
  let resp ← requestJson (.bare .post path (some body))
  let probe ← parseOrSnip K probeWhat sep "EnvelopeProbe" EnvelopeProbe.ofJson resp.body
  require (probe.code = CODE_OK) (mapApiError probe.code probe.error)
  let env ← parseOrSnip K what sep ("ResponseEnvelope<" ++ type ++ ">")
    (ResponseEnvelope.ofJson dec) resp.body
  return env.inner

theorem postProbed_ok {K : Crates} {α : Type} {probeWhat what sep type : String}
    {dec : Json → Option α} {path : String} {body : Json} {a : α} {tr : Trace host}
    (h : Runs (postProbed K probeWhat what sep type dec path body).run tr (.done (.ok a))) :
    ∃ resp, tr = [⟨.requestJson (.bare .post path (some body)), .ok resp⟩] ∧
      K.Envelopes dec resp.body a := by
  obtain ⟨resp, t₁, t₂, rfl, h₁, h⟩ := h.bindE_ok
  obtain ⟨probe, t₃, t₄, rfl, h₂, h⟩ := h.bindE_ok
  obtain ⟨_, t₅, t₆, rfl, h₃, h⟩ := h.bindE_ok
  obtain ⟨env, t₇, t₈, rfl, h₄, h⟩ := h.bindE_ok
  obtain ⟨rfl, rfl⟩ := pure_ok h
  obtain ⟨rfl, henv⟩ := parseOrSnip_ok h₄
  obtain ⟨rfl, hcode⟩ := require_ok h₃
  obtain ⟨rfl, hprobe⟩ := parseOrSnip_ok h₂
  refine ⟨resp, by simpa using requestJson_ok h₁, env.error, ?_⟩
  -- the probe and the envelope read the same member `Code`
  have hsame : env.code = probe.code := by
    cases hj : K.jsonParse resp.body with
    | none => rw [hj] at henv; cases henv
    | some j =>
      rw [hj] at henv hprobe
      simp only [Option.bind_some, ResponseEnvelope.ofJson, Option.bind_eq_bind,
        Option.bind_eq_some_iff, Option.pure_def, Option.some.injEq] at henv
      obtain ⟨c, hc, i, _, e, _, rfl⟩ := henv
      simp only [Option.bind_some, EnvelopeProbe.ofJson_eq hc, EnvelopeProbe.ofMembers,
        Option.bind_eq_bind, Option.bind_eq_some_iff, Option.pure_def, Option.some.injEq] at hprobe
      obtain ⟨c', hc', e', _, rfl⟩ := hprobe
      rw [hc] at hc'
      exact Option.some.inj hc'
  have hok : env.code = CODE_OK := hsame.trans (of_decide_eq_true hcode)
  rw [henv, ← hok]

theorem within_postProbed {A : HostCall → Prop} {Q : Fault → Prop} (hQ : ∀ f, Q f) {K : Crates}
    {α : Type} {probeWhat what sep type : String} {dec : Json → Option α} {path : String}
    {body : Json} (h : A (.requestJson (.bare .post path (some body)))) :
    Within (S := host) A Q (postProbed K probeWhat what sep type dec path body) := by
  refine Within.bind (within_requestJson (fun _ => hQ _) h) fun _ => ?_
  refine Within.bind (within_parseOrSnip hQ) fun _ => ?_
  refine Within.bind (within_require (fun _ => hQ _) _ _) fun _ => ?_
  refine Within.bind (within_parseOrSnip hQ) fun _ => ?_
  exact Within.pure _

/-! ### the panic of a probed answer -/

/-- the body is not the answer that was asked for, and cannot be quoted in an error either -/
def Unquotable (K : Crates) {α : Type} (dec : Json → Option α) (body : Bytes) : Prop :=
  bodySnippet body = none ∧
    ((K.jsonParse body).bind EnvelopeProbe.ofJson = none ∨
      ∃ probe, (K.jsonParse body).bind EnvelopeProbe.ofJson = some probe ∧ probe.code = CODE_OK ∧
        (K.jsonParse body).bind (ResponseEnvelope.ofJson dec) = none)

theorem not_panicked {A : HostCall → Prop} {α : Type} {p : Sdk α} {tr : Trace host} {msg : String}
    (hp : Within (S := host) A Fault.IsError p) :
    ¬ Runs p.run tr (.done (.error (.panicked msg))) :=
  fun h => hp.error h

section
variable {K : Crates} {α : Type} {probeWhat what sep type path : String} {dec : Json → Option α}
  {body : Json} {tr : Trace host}

/-- a parse that failed: it panicked exactly if the body cannot be quoted -/
theorem parseOrSnip_fault {f : Fault} {bs : Bytes}
    (h : Runs (parseOrSnip K what sep type dec bs).run tr (.done (.error f))) :
    tr = [] ∧ (K.jsonParse bs).bind dec = none ∧ (bodySnippet bs = none ↔ ¬ f.IsError) := by
  unfold parseOrSnip Crates.fromSlice at h
  cases hdec : (K.jsonParse bs).bind dec with
  | some a =>
    rw [hdec] at h
    obtain ⟨_, h | h⟩ := Runs.ret_inv h <;> cases h
  | none =>
    rw [hdec] at h
    cases hsnip : bodySnippet bs with
    | some text =>
      rw [hsnip] at h
      obtain ⟨rfl, h | h⟩ := Runs.ret_inv h
      · cases h
        exact ⟨rfl, rfl, nofun, fun h => absurd trivial h⟩
      · cases h
    | none =>
      rw [hsnip] at h
      obtain ⟨rfl, h | h⟩ := Runs.ret_inv h
      · cases h
        exact ⟨rfl, rfl, fun _ => id, fun _ => rfl⟩
      · cases h

/-- a probed `POST` that failed: it panicked exactly if its answer is unquotable -/
theorem postProbed_fault {f : Fault}
    (h : Runs (postProbed K probeWhat what sep type dec path body).run tr (.done (.error f))) :
    ¬ f.IsError ↔ ∃ resp, ⟨.requestJson (.bare .post path (some body)), .ok resp⟩ ∈ tr ∧
      Unquotable K dec resp.body := by
  rcases h.bindE_error with ⟨resp, t₁, u₁, rfl, h₁, k₁⟩ | hreq
  · obtain rfl := requestJson_ok h₁
    -- the rest of the run is silent, so `resp` is the answer the trace shows
    have hiff : ∀ P : Bytes → Prop, u₁ = [] →
        ((∃ resp', ⟨.requestJson (.bare .post path (some body)), .ok resp'⟩ ∈
          [(⟨.requestJson (.bare .post path (some body)), .ok resp⟩ : Event host)] ++ u₁ ∧
            P resp'.body) ↔ P resp.body) := by
      rintro P rfl
      constructor
      · intro ⟨resp', hm, hP⟩
        cases List.mem_singleton.mp (List.append_nil _ ▸ hm)
        exact hP
      · exact fun hP => ⟨resp, List.mem_append_left _ (List.mem_singleton.mpr rfl), hP⟩
    rcases k₁.bindE_error with ⟨probe, t₂, u₂, rfl, h₂, k₂⟩ | hprobe
    · obtain ⟨rfl, hp⟩ := parseOrSnip_ok h₂
      rcases k₂.bindE_error with ⟨_, t₃, u₃, rfl, h₃, k₃⟩ | hcode
      · obtain ⟨rfl, hc⟩ := require_ok h₃
        rcases k₃.bindE_error with ⟨_, t₄, u₄, rfl, _, k₄⟩ | henv
        · obtain ⟨_, k₄ | k₄⟩ := Runs.ret_inv k₄ <;> cases k₄
        · obtain ⟨rfl, hdec, hsnip⟩ := parseOrSnip_fault henv
          rw [hiff (Unquotable K dec) rfl, ← hsnip]
          exact ⟨fun hs => ⟨hs, .inr ⟨probe, hp, of_decide_eq_true hc, hdec⟩⟩, fun hu => hu.1⟩
      · obtain ⟨rfl, hno, rfl⟩ := require_fault hcode
        rw [hiff (Unquotable K dec) rfl]
        refine ⟨fun hf => absurd trivial hf, ?_⟩
        rintro ⟨_, hnone | ⟨probe', hp', hc, _⟩⟩
        · rw [hp] at hnone
          cases hnone
        · rw [hp] at hp'
          cases hp'
          exact absurd hc (of_decide_eq_false hno)
    · obtain ⟨rfl, hdec, hsnip⟩ := parseOrSnip_fault hprobe
      rw [hiff (Unquotable K dec) rfl, ← hsnip]
      exact ⟨fun hs => ⟨hs, .inl hdec⟩, fun hu => hu.1⟩
  · obtain ⟨e, rfl, rfl⟩ := requestJson_fault hreq
    refine ⟨fun hf => absurd trivial hf, ?_⟩
    intro ⟨resp, hm, _⟩
    cases List.mem_singleton.mp hm

end

end ProtonDrive
