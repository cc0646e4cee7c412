import ProtonDrive.App.Stack

/-!
# The attempts of the transport

* `Transient`, `verdict`   the answers after which an attempt is repeated, and what is made of the others;
* `Repeated`, `retries`    an attempt that is repeated, with the pause after it;
* `sendWithRetry_attempts`
                           the runs of `sendWithRetry`, exactly: the same request each time, pauses that
                           double, and never another attempt after an answer that settles it;
* `transport_retries`      the same for the transport, and how long its pauses last in all;
* `sendWithRetry_repeats`  what holds of the requests of a run that is not over.
-/

set_option linter.unusedVariables false

namespace ProtonDrive
open Encoding Effects

/-! ## what an answer leads to -/

abbrev WireAnswer := Except WireError WireResponse

/-- the server failed and said so in full, or it could not be reached -/
def Transient : WireAnswer → Prop
  | .ok resp => (∃ bytes, resp.body = .ok bytes) ∧ 500 ≤ resp.status ∧ resp.status < 600
  | .error (.transient _) => True
  | .error (.other _) => False

/-- what an attempt that is not repeated makes of its answer -/
def verdict (attempt : Nat) : WireAnswer → Except Error JsonResponse
  | .ok resp =>
    if resp.status = 429 then .error (.rateLimited (ReqwestHttpClient.retryAfter resp.headers))
    else
      match resp.body with
      | .error e => .error (.network ("body read: " ++ e))
      | .ok bytes => .ok { status := resp.status, body := bytes,
                           headers := resp.headers.map fun h => (h.1, h.2.getD "") }
  | .error (.transient e) =>
    .error (.network ("transport error after " ++ toString attempt ++ " attempts: " ++ e))
  | .error (.other e) => .error (.network e)

/-- the pause after the attempt with the number `i`, from 0, before the jitter -/
def pauseMs (i : Nat) : Nat := min (250 * 2 ^ i) 8000

theorem pauseMs_succ (i : Nat) : min (pauseMs i * 2) 8000 = pauseMs (i + 1) := by
  unfold pauseMs
  rw [Nat.pow_succ]
  omega

structure Repeated where
  answer : WireAnswer
  jitter : Nat

/-- the request is sent, and then there is a pause -/
def Repeated.events (wire : WireRequest) (i : Nat) (f : Repeated) : Trace wireHost :=
  [⟨.send wire, f.answer⟩, ⟨.jitter (pauseMs i / 2 + 1), f.jitter⟩,
    ⟨.sleepMillis (pauseMs i + f.jitter), ()⟩]

/-- the attempts that are repeated, the first of which has the number `i` -/
def retries (wire : WireRequest) : (i : Nat) → List Repeated → Trace wireHost
  | _, [] => []
  | i, f :: rest => f.events wire i ++ retries wire (i + 1) rest

section
variable {wire : WireRequest} {maxAttempts left attempt i : Nat} {answer : WireAnswer}
  {tr : Trace wireHost} {r : Except Error JsonResponse}

/-- `attempts` after its first request was answered -/
def afterAnswer (wire : WireRequest) (maxAttempts left attempt delayMs : Nat) :
    WireAnswer → Wire JsonResponse
  | .ok resp =>
    if resp.status = 429 then throw (.rateLimited (ReqwestHttpClient.retryAfter resp.headers))
    else
      match resp.body with
      | .error e => throw (.network ("body read: " ++ e))
      | .ok bytes =>
        if 500 ≤ resp.status ∧ resp.status < 600 ∧ attempt < maxAttempts then do
          ReqwestHttpClient.sleepWithJitter delayMs
          ReqwestHttpClient.attempts wire maxAttempts left (attempt + 1) (min (delayMs * 2) 8000)
        else
          return { status := resp.status, body := bytes,
                   headers := resp.headers.map fun h => (h.1, h.2.getD "") }
  | .error (.transient e) =>
    if attempt ≥ maxAttempts then
      throw (.network ("transport error after " ++ toString attempt ++ " attempts: " ++ e))
    else do
      ReqwestHttpClient.sleepWithJitter delayMs
      ReqwestHttpClient.attempts wire maxAttempts left (attempt + 1) (min (delayMs * 2) 8000)
  | .error (.other e) => throw (.network e)

theorem attempts_succ (delayMs : Nat) :
    ReqwestHttpClient.attempts wire maxAttempts (left + 1) attempt delayMs =
      (wireCall (.send wire) >>= afterAnswer wire maxAttempts left attempt delayMs) := by
  rw [ReqwestHttpClient.attempts]
  refine congrArg (wireCall (.send wire) >>= ·) (funext fun sent => ?_)
  match sent with
  | .ok resp => rfl
  | .error (.transient e) => rfl
  | .error (.other e) => rfl

theorem afterAnswer_transient {delayMs : Nat} (h : Transient answer) (hmore : attempt < maxAttempts) :
    afterAnswer wire maxAttempts left attempt delayMs answer =
      (ReqwestHttpClient.sleepWithJitter delayMs >>= fun _ =>
        ReqwestHttpClient.attempts wire maxAttempts left (attempt + 1) (min (delayMs * 2) 8000)) := by
  match answer, h with
  | .ok resp, ⟨⟨bytes, hbody⟩, hserver⟩ =>
    have hstatus : resp.status ≠ 429 := by omega
    show (if _ then _ else _ : Wire JsonResponse) = _
    rw [if_neg hstatus, hbody]
    exact if_pos ⟨hserver.1, hserver.2, hmore⟩
  | .error (.transient e), _ => exact if_neg (Nat.not_le.mpr hmore)

theorem afterAnswer_settled {delayMs : Nat} (h : Transient answer → maxAttempts ≤ attempt) :
    (afterAnswer wire maxAttempts left attempt delayMs answer).run = .ret (verdict attempt answer) := by
  match answer with
  | .ok resp =>
    show (if _ then _ else _ : Wire JsonResponse).run = .ret (if _ then _ else _)
    by_cases hlimit : resp.status = 429
    · rw [if_pos hlimit, if_pos hlimit]
      rfl
    · rw [if_neg hlimit, if_neg hlimit]
      cases hbody : resp.body with
      | error e => rfl
      | ok bytes =>
        have hlast : ¬ (500 ≤ resp.status ∧ resp.status < 600 ∧ attempt < maxAttempts) := by
          intro ⟨hlow, hhigh, hmore⟩
          exact Nat.not_lt.mpr (h ⟨⟨bytes, hbody⟩, hlow, hhigh⟩) hmore
        show (if _ then _ else _ : Wire JsonResponse).run = _
        rw [if_neg hlast]
        rfl
  | .error (.transient e) =>
    show (if _ then _ else _ : Wire JsonResponse).run = _
    rw [if_pos (h trivial)]
    rfl
  | .error (.other e) => rfl

/-! ## the runs -/

theorem sleepWithJitter_iff {ms : Nat} {u : Unit} :
    Runs (ReqwestHttpClient.sleepWithJitter ms).run tr (.done (.ok u)) ↔
      ∃ j : Nat, tr = [⟨.jitter (ms / 2 + 1), j⟩, ⟨.sleepMillis (ms + j), ()⟩] := by
  constructor
  · intro h
    rcases Runs.call_inv h with ⟨_, ho⟩ | ⟨j, t, rfl, hj⟩
    · cases ho
    · rcases Runs.call_inv hj with ⟨_, ho⟩ | ⟨v, t', rfl, hv⟩
      · cases ho
      · obtain ⟨rfl, _⟩ := Runs.ret_inv hv
        exact ⟨j, rfl⟩
  · intro ⟨j, htr⟩
    rw [htr]
    exact .call (.call (.ret _))

theorem sleepWithJitter_not_error {ms : Nat} {e : Error} :
    ¬ Runs (ReqwestHttpClient.sleepWithJitter ms).run tr (.done (.error e)) := by
  intro h
  rcases Runs.call_inv h with ⟨_, ho⟩ | ⟨j, t, rfl, hj⟩
  · cases ho
  · rcases Runs.call_inv hj with ⟨_, ho⟩ | ⟨v, t', rfl, hv⟩
    · cases ho
    · obtain ⟨_, ho | ho⟩ := Runs.ret_inv hv <;> cases ho

/-- the runs of the attempts that are left, of which there is one at least -/
def AttemptsTo (wire : WireRequest) (left attempt i : Nat) (tr : Trace wireHost)
    (r : Except Error JsonResponse) : Prop :=
  ∃ (fails : List Repeated) (answer : WireAnswer), fails.length ≤ left ∧
    (∀ f ∈ fails, Transient f.answer) ∧ (Transient answer → fails.length = left) ∧
    r = verdict (attempt + fails.length) answer ∧
    tr = retries wire i fails ++ [⟨.send wire, answer⟩]

theorem attempts_to (hleft : left + attempt = maxAttempts)
    (h : Runs (ReqwestHttpClient.attempts wire maxAttempts (left + 1) attempt (pauseMs i)).run tr
      (.done r)) : AttemptsTo wire left attempt i tr r := by
  induction left generalizing attempt i tr with
  | zero =>
    rw [attempts_succ] at h
    rcases Runs.call_inv h with ⟨_, ho⟩ | ⟨answer, t, rfl, ha⟩
    · cases ho
    · have hsettled : (afterAnswer wire maxAttempts 0 attempt (pauseMs i) answer).run =
          .ret (verdict attempt answer) := afterAnswer_settled fun _ => by omega
      have h' : Runs (afterAnswer wire maxAttempts 0 attempt (pauseMs i) answer).run t (.done r) := ha
      rw [hsettled] at h'
      obtain ⟨rfl, hr | hr⟩ := Runs.ret_inv h'
      · cases hr
        exact ⟨[], answer, Nat.le_refl _, nofun, fun _ => rfl, rfl, rfl⟩
      · cases hr
  | succ left ih =>
    rw [attempts_succ] at h
    rcases Runs.call_inv h with ⟨_, ho⟩ | ⟨answer, t, rfl, ha⟩
    · cases ho
    · have h' : Runs (afterAnswer wire maxAttempts (left + 1) attempt (pauseMs i) answer).run t
        (.done r) := ha
      by_cases htransient : Transient answer
      · rw [afterAnswer_transient htransient (by omega), pauseMs_succ] at h'
        rcases Runs.bindE_inv h' with ⟨u, t₁, t₂, rfl, hpause, hrest⟩ | ⟨o₁, ho, hpause⟩
        · obtain ⟨j, rfl⟩ := sleepWithJitter_iff.mp hpause
          obtain ⟨fails, last, hlen, hall, hlast, hr, htr⟩ := ih (by omega) hrest
          refine ⟨⟨answer, j⟩ :: fails, last, Nat.succ_le_succ hlen, ?_, ?_, ?_, ?_⟩
          · intro f hf
            rcases List.mem_cons.mp hf with rfl | hf
            · exact htransient
            · exact hall f hf
          · intro htr'
            rw [List.length_cons, hlast htr']
          · rw [hr, List.length_cons]
            congr 1
            omega
          · rw [htr]
            rfl
        · cases r with
          | ok resp => exact absurd ho Outcome.Aborts.not_ok
          | error e =>
            rw [ho.error] at hpause
            exact absurd hpause sleepWithJitter_not_error
      · rw [afterAnswer_settled fun h => absurd h htransient] at h'
        obtain ⟨rfl, hr | hr⟩ := Runs.ret_inv h'
        · cases hr
          exact ⟨[], answer, Nat.zero_le _, nofun, fun h => absurd h htransient, rfl, rfl⟩
        · cases hr

theorem attempts_of (hleft : left + attempt = maxAttempts) (h : AttemptsTo wire left attempt i tr r) :
    Runs (ReqwestHttpClient.attempts wire maxAttempts (left + 1) attempt (pauseMs i)).run tr
      (.done r) := by
  obtain ⟨fails, answer, hlen, hall, hlast, rfl, rfl⟩ := h
  induction fails generalizing left attempt i with
  | nil =>
    rw [attempts_succ]
    have hout : Transient answer → maxAttempts ≤ attempt := by
      intro h
      have := hlast h
      rw [List.length_nil] at this
      omega
    have hret : Runs (afterAnswer wire maxAttempts left attempt (pauseMs i) answer).run []
        (.done (verdict attempt answer)) := by
      rw [afterAnswer_settled hout]
      exact .ret _
    exact .call hret
  | cons f fails ih =>
    obtain ⟨left, rfl⟩ : ∃ n, left = n + 1 := ⟨left - 1, by rw [List.length_cons] at hlen; omega⟩
    rw [List.length_cons] at hlen hlast
    have hrest : Runs (ReqwestHttpClient.attempts wire maxAttempts (left + 1) (attempt + 1)
        (pauseMs (i + 1))).run (retries wire (i + 1) fails ++ [⟨.send wire, answer⟩])
        (.done (verdict (attempt + 1 + fails.length) answer)) :=
      ih (by omega) (by omega) (fun f' hf' => hall f' (List.mem_cons_of_mem _ hf'))
        fun h => Nat.succ.inj (hlast h)
    have hpause : Runs (ReqwestHttpClient.sleepWithJitter (pauseMs i)).run
        [⟨.jitter (pauseMs i / 2 + 1), f.jitter⟩, ⟨.sleepMillis (pauseMs i + f.jitter), ()⟩]
        (.done (.ok ())) := sleepWithJitter_iff.mpr ⟨f.jitter, rfl⟩
    have hafter : Runs (afterAnswer wire maxAttempts (left + 1) attempt (pauseMs i) f.answer).run
        ([⟨.jitter (pauseMs i / 2 + 1), f.jitter⟩, ⟨.sleepMillis (pauseMs i + f.jitter), ()⟩] ++
          (retries wire (i + 1) fails ++ [⟨.send wire, answer⟩]))
        (.done (verdict (attempt + (f :: fails).length) answer)) := by
      rw [afterAnswer_transient (hall f List.mem_cons_self) (by omega), pauseMs_succ, List.length_cons,
        show attempt + (fails.length + 1) = attempt + 1 + fails.length by omega]
      exact Runs.bindE hpause hrest
    rw [attempts_succ]
    exact .call hafter

end

/-! ## the transport -/

section
variable {client : ReqwestHttpClient} {wire : WireRequest} {tr : Trace wireHost}

/-- the request as it is sent each time -/
def ReqwestHttpClient.stamped (client : ReqwestHttpClient) (wire : WireRequest) : WireRequest :=
  { wire with headers := wire.headers ++
    [("x-pm-appversion", client.appVersion), ("accept", "application/json")] }

/-- the request was sent `fails.length + 1` times, with the pauses of `fails` between, and the last answer
settled it or nothing was left to try -/
structure Attempted (client : ReqwestHttpClient) (wire : WireRequest) (tr : Trace wireHost)
    (r : Except Error JsonResponse) (fails : List Repeated) (answer : WireAnswer) : Prop where
  few : fails.length < client.maxAttempts
  repeated : ∀ f ∈ fails, Transient f.answer
  settled : Transient answer → fails.length + 1 = client.maxAttempts
  result : r = verdict (fails.length + 1) answer
  trace : tr = retries (client.stamped wire) 0 fails ++ [⟨.send (client.stamped wire), answer⟩]

theorem sendWithRetry_attempts (hmax : client.maxAttempts ≠ 0) {r : Except Error JsonResponse} :
    Runs (client.sendWithRetry wire).run tr (.done r) ↔
      ∃ fails answer, Attempted client wire tr r fails answer := by
  obtain ⟨left, hleft⟩ := Nat.exists_eq_succ_of_ne_zero hmax
  have hstart : client.sendWithRetry wire =
      ReqwestHttpClient.attempts (client.stamped wire) client.maxAttempts (left + 1) 1 (pauseMs 0) := by
    unfold ReqwestHttpClient.sendWithRetry
    rw [hleft]
    rfl
  rw [hstart]
  constructor
  · intro h
    obtain ⟨fails, answer, hlen, hall, hlast, hr, htr⟩ := attempts_to (by omega) h
    refine ⟨fails, answer, by omega, hall, fun ht => ?_, ?_, htr⟩
    · rw [hlast ht, hleft]
    · rw [hr, Nat.add_comm]
  · intro ⟨fails, answer, h⟩
    refine attempts_of (by omega) ⟨fails, answer, ?_, h.repeated, fun ht => ?_, ?_, h.trace⟩
    · have := h.few
      omega
    · have := h.settled ht
      omega
    · rw [h.result, Nat.add_comm]

/-! ## how long it takes -/

/-- the milliseconds slept in a run -/
def slept (tr : Trace wireHost) : Nat :=
  (tr.map fun e => match e.call with
    | .sleepMillis ms => ms
    | _ => 0).sum

/-- random numbers are below the bound that is asked for -/
def JittersBelow (tr : Trace wireHost) : Prop :=
  ∀ below (j : Nat), (⟨.jitter below, j⟩ : Event wireHost) ∈ tr → j < below

theorem slept_append (t u : Trace wireHost) : slept (t ++ u) = slept t + slept u := by
  unfold slept
  rw [List.map_append, List.sum_append]

/-- what the pauses after `n` attempts last at most, from the one with the number `i` on -/
def pausesFrom : (i n : Nat) → Nat
  | _, 0 => 0
  | i, n + 1 => pauseMs i + pauseMs i / 2 + pausesFrom (i + 1) n

theorem pausesFrom_mono {i m n : Nat} (h : m ≤ n) : pausesFrom i m ≤ pausesFrom i n := by
  induction m generalizing i n with
  | zero => exact Nat.zero_le _
  | succ m ih =>
    obtain ⟨n, rfl⟩ : ∃ k, n = k + 1 := ⟨n - 1, by omega⟩
    exact Nat.add_le_add_left (ih (by omega)) _

theorem slept_retries (i : Nat) (fails : List Repeated) (hjitter : JittersBelow (retries wire i fails)) :
    slept (retries wire i fails) ≤ pausesFrom i fails.length := by
  induction fails generalizing i with
  | nil => exact Nat.le_refl _
  | cons f fails ih =>
    have hbelow : f.jitter < pauseMs i / 2 + 1 := hjitter _ _
      (List.mem_append_left _ (List.mem_cons_of_mem _ List.mem_cons_self))
    have hrest := ih (i + 1) fun below j hmem => hjitter below j (List.mem_append_right _ hmem)
    have hpause : slept (f.events wire i) = pauseMs i + f.jitter := by
      simp [slept, Repeated.events]
    show slept (f.events wire i ++ retries wire (i + 1) fails) ≤
      pauseMs i + pauseMs i / 2 + pausesFrom (i + 1) fails.length
    rw [slept_append, hpause]
    omega

theorem Attempted.slept_le {r : Except Error JsonResponse} {fails : List Repeated} {answer : WireAnswer}
    (h : Attempted client wire tr r fails answer) (hjitter : JittersBelow tr) :
    slept tr ≤ pausesFrom 0 (client.maxAttempts - 1) := by
  have hrest : slept [(⟨.send (client.stamped wire), answer⟩ : Event wireHost)] = 0 := rfl
  rw [h.trace, slept_append, hrest]
  rw [h.trace] at hjitter
  have hretries := slept_retries 0 fails fun below j hmem =>
    hjitter below j (List.mem_append_left _ hmem)
  have hfew := h.few
  exact Nat.le_trans hretries (pausesFrom_mono (by omega))

/-- a request is sent at most `maxAttempts` times, always as it is, with doubling pauses, and never after an
answer that settles it: the runs that return are exactly those; the pauses last as long as the bound at most -/
theorem transport_retries (hmax : client.maxAttempts ≠ 0) :
    (∀ tr r, Runs (client.sendWithRetry wire).run tr (.done r) ↔
      ∃ fails answer, Attempted client wire tr r fails answer) ∧
    ∀ tr r, Runs (client.sendWithRetry wire).run tr (.done r) → JittersBelow tr →
      slept tr ≤ pausesFrom 0 (client.maxAttempts - 1) := by
  refine ⟨fun tr r => sendWithRetry_attempts hmax, fun tr r hrun hjitter => ?_⟩
  obtain ⟨fails, answer, h⟩ := (sendWithRetry_attempts hmax).mp hrun
  exact h.slept_le hjitter

/-- a request that is answered with 503 once -/
def busyWire : WireRequest :=
  { method := .get, url := "https://drive.proton.me/api/core/v4/users", query := [], headers := [],
    body := .none }

def busyRetry : Repeated where
  answer := .ok { status := 503, headers := [], body := .ok [] }
  jitter := 7

def busyClient : ReqwestHttpClient := .new defaultBaseUrl defaultAppVersion

def busyTrace : Trace wireHost :=
  retries (busyClient.stamped busyWire) 0 [busyRetry] ++
    [⟨.send (busyClient.stamped busyWire), .ok { status := 200, headers := [], body := .ok [] }⟩]

theorem busyTrace_retries :
    Runs (busyClient.sendWithRetry busyWire).run busyTrace
      (.done (.ok { status := 200, body := [], headers := [] })) ∧ slept busyTrace ≤ 5625 := by
  have hmax : busyClient.maxAttempts ≠ 0 := by decide
  have hrun : Runs (busyClient.sendWithRetry busyWire).run busyTrace
      (.done (.ok { status := 200, body := [], headers := [] })) :=
    ((transport_retries hmax).1 busyTrace _).mpr
      ⟨[busyRetry], .ok { status := 200, headers := [], body := .ok [] }, {
      few := by decide
      repeated := by
        intro f hf
        cases List.mem_singleton.mp hf
        exact ⟨⟨[], rfl⟩, by decide, by decide⟩
      settled := fun h => absurd h.2.1 (by decide)
      result := rfl
      trace := rfl }⟩
  refine ⟨hrun, (transport_retries hmax).2 _ _ hrun ?_⟩
  intro below j hmem
  simp only [busyTrace, retries, Repeated.events, List.append_nil, List.cons_append, List.nil_append,
    List.mem_cons, List.not_mem_nil, or_false] at hmem
  rcases hmem with h | h | h | h <;> cases h
  decide

/-! ## the attempts of a run that is not over -/

theorem atMost_attempts (left attempt delayMs : Nat) :
    AtMost (ReqwestHttpClient.attempts wire client.maxAttempts left attempt delayMs).run (3 * left) := by
  induction left generalizing attempt delayMs with
  | zero => trivial
  | succ left ih =>
    have hpause : ∀ ms, AtMost (ReqwestHttpClient.sleepWithJitter ms >>= fun _ =>
        ReqwestHttpClient.attempts wire client.maxAttempts left (attempt + 1) (min (delayMs * 2) 8000)).run
        (2 + 3 * left) := fun ms =>
      AtMost.bindE (show AtMost (ReqwestHttpClient.sleepWithJitter ms).run 2 from fun _ _ => trivial)
        fun _ => ih _ _
    rw [attempts_succ, show 3 * (left + 1) = 2 + 3 * left + 1 by omega]
    intro answer
    show AtMost (afterAnswer wire client.maxAttempts left attempt delayMs answer).run (2 + 3 * left)
    by_cases htransient : Transient answer ∧ attempt < client.maxAttempts
    · rw [afterAnswer_transient htransient.1 htransient.2]
      exact hpause delayMs
    · rw [afterAnswer_settled fun h => Nat.not_lt.mp fun hlt => htransient ⟨h, hlt⟩]
      trivial

theorem mem_retries {i : Nat} {fails : List Repeated} {wire' : WireRequest} {a : WireAnswer}
    (h : (⟨.send wire', a⟩ : Event wireHost) ∈ retries wire i fails) :
    wire' = wire ∧ ∃ f ∈ fails, a = f.answer := by
  induction fails generalizing i with
  | nil => cases h
  | cons f fails ih =>
    rcases List.mem_append.mp h with h | h
    · rcases List.mem_cons.mp h with h | h
      · cases h
        exact ⟨rfl, f, List.mem_cons_self, rfl⟩
      · rcases List.mem_pair.mp h with h | h <;> cases h
    · obtain ⟨hwire, f', hf', ha⟩ := ih h
      exact ⟨hwire, f', List.mem_cons_of_mem _ hf', ha⟩

/-- every request of a run is the one that is to be sent, and one that is not the last was answered so that
it is repeated -/
theorem sendWithRetry_repeats {o : Outcome (Except Error JsonResponse)} {pre post : Trace wireHost}
    {wire' : WireRequest} {a : WireAnswer}
    (h : Runs (client.sendWithRetry wire).run (pre ++ ⟨.send wire', a⟩ :: post) o) :
    wire' = client.stamped wire ∧
      ∀ wire'' b, (⟨.send wire'', b⟩ : Event wireHost) ∈ post → Transient a := by
  by_cases hmax : client.maxAttempts = 0
  · unfold ReqwestHttpClient.sendWithRetry at h
    rw [hmax] at h
    obtain ⟨hnil, _⟩ := Runs.ret_inv h
    simp at hnil
  · obtain ⟨tr', r, hdone⟩ := Runs.completes (atMost_attempts _ _ _) wire_answers h
    obtain ⟨fails, answer, hattempted⟩ := (sendWithRetry_attempts hmax).mp hdone
    have htrace := hattempted.trace
    rw [List.append_assoc, List.cons_append] at htrace
    -- the request is one of those that were repeated, or the last
    rcases List.eq_nil_or_concat' (post ++ tr') with hlast | ⟨rest, e, hrest⟩
    · rw [hlast] at htrace
      obtain ⟨_, heq⟩ := List.append_inj' htrace rfl
      cases heq
      refine ⟨rfl, fun wire'' b hmem => ?_⟩
      rw [(List.append_eq_nil_iff.mp hlast).1] at hmem
      cases hmem
    · rw [hrest, ← List.cons_append, ← List.append_assoc] at htrace
      obtain ⟨hfails, _⟩ := List.append_inj' htrace rfl
      have hmem : (⟨.send wire', a⟩ : Event wireHost) ∈ retries (client.stamped wire) 0 fails := by
        rw [← hfails]
        exact List.mem_append_right _ List.mem_cons_self
      obtain ⟨hwire, f, hf, ha⟩ := mem_retries hmem
      refine ⟨hwire, fun _ _ _ => ?_⟩
      rw [ha]
      exact hattempted.repeated f hf

end

end ProtonDrive
