import ProtonDrive.Lib.Paths
import ProtonDrive.Events.Ends

/-!
# Cancelling a subscription

The task looks at its token only while it waits for the next poll and right after that wait; the drain
is not given the token.

* `Phase`, `Turn`        where the task is between two calls, and how a call moves it on;
* `Moves`                the turns of a trace (`task_moves`: every run of the task makes them);
* `cancel_stops`         a task whose token is cancelled makes no further request, tells of no event and
                         stores no cursor exactly if it was at rest;
* `cancelledFetch_continues`
                         a token that is cancelled while a page is fetched does not stop the drain.
-/

set_option linter.unusedVariables false

namespace ProtonDrive
open Encoding Effects Api Paths

/-- the calls that a cancelled task is not to make -/
def isEffect : HostCall → Bool
  | .requestJson _ => true
  | .onEvent _ => true
  | .providerSet _ => true
  | _ => false

/-- the looks at the token -/
def isLook : HostCall → Bool
  | .sleepOrCancelled _ => true
  | .isCancelled _ => true
  | _ => false

/-- where the task is between two calls; `resting` is the head of its loop, and its end -/
inductive Phase where
  | starting
  | resolving
  | resting
  | polling
  deriving DecidableEq

section
variable (K : Crates) (volumeId : String)

/-- how a call and its answer move the task on -/
inductive Turn : Phase → Event host → Phase → Prop
  | found {a} (h : a ≠ .ok none) : Turn .starting ⟨.providerGet, a⟩ .resting
  | missing : Turn .starting ⟨.providerGet, .ok none⟩ .resolving
  | latest {resp latest} (h : K.Envelopes Events.GetLatestEventIdResponse.ofJson resp.body latest) :
      Turn .resolving ⟨.requestJson (latestGet volumeId), .ok resp⟩ .resolving
  | noLatest {ans} (h : ∀ resp latest, ans = .ok resp →
      ¬ K.Envelopes Events.GetLatestEventIdResponse.ofJson resp.body latest) :
      Turn .resolving ⟨.requestJson (latestGet volumeId), ans⟩ .resting
  | stored (c a) : Turn .resolving ⟨.providerSet c, a⟩ .resting
  | sleeps (secs woken) : Turn .resting ⟨.sleepOrCancelled secs, woken⟩ .resting
  | stops : Turn .resting ⟨.isCancelled .subscription, true⟩ .resting
  | polls : Turn .resting ⟨.isCancelled .subscription, false⟩ .polling
  | answered {c ans} (h : IsPage K ans ∨ Gone K ans) :
      Turn .polling ⟨.requestJson (eventsGet volumeId c), ans⟩ .polling
  | failed {c ans} (hno : ¬ IsPage K ans) (hgone : ¬ Gone K ans) :
      Turn .polling ⟨.requestJson (eventsGet volumeId c), ans⟩ .resting
  | tells {ev} (h : isRemoval (.onEvent ev) = false) : Turn .polling ⟨.onEvent ev, ()⟩ .polling
  | removes {ev} (h : isRemoval (.onEvent ev) = true) : Turn .polling ⟨.onEvent ev, ()⟩ .resting
  | persists (c a) : Turn .polling ⟨.providerSet c, a⟩ .resting

/-- the turns of a trace, from one phase to another -/
abbrev Moves : Phase → Trace host → Phase → Prop := Path (Turn K volumeId)

end

section
variable {K : Crates} {volumeId cursor : String} {p q r : Phase} {tr t u : Trace host}
  {e : Event host} {fuel retry : Nat}

/-! ## one call -/

/-- the task does not come back to its start -/
theorem Turn.not_starting (h : Turn K volumeId p e q) : q ≠ .starting := by
  cases h <;> nofun

theorem Turn.starts (h : Turn K volumeId .starting e q) :
    isEffect e.call = false ∧ (q = .resting ∨ e = ⟨.providerGet, .ok none⟩ ∧ q = .resolving) := by
  cases h with
  | found => exact ⟨rfl, .inl rfl⟩
  | missing => exact ⟨rfl, .inr ⟨rfl, rfl⟩⟩

/-- at rest the task looks at its token; while that is cancelled it stays at rest -/
theorem Turn.rests (h : Turn K volumeId .resting e q)
    (hcancelled : ∀ a, e = ⟨.isCancelled .subscription, a⟩ → a = true) :
    isLook e.call = true ∧ q = .resting := by
  cases h with
  | sleeps => exact ⟨rfl, rfl⟩
  | stops => exact ⟨rfl, rfl⟩
  | polls => cases hcancelled false rfl

/-- between its start and its next rest the task makes the calls that a cancelled one is not to make -/
theorem Turn.busy (h : Turn K volumeId p e q) (hp : p = .resolving ∨ p = .polling) :
    isEffect e.call = true := by
  rcases hp with rfl | rfl
  · cases h <;> rfl
  · cases h <;> rfl

theorem not_effect_of_look {c : HostCall} (h : isLook c = true) : isEffect c = false := by
  cases c with
  | sleepOrCancelled => rfl
  | isCancelled => rfl
  | _ => cases h

theorem Moves.rests (h : Moves K volumeId .resting t q)
    (hcancelled : ∀ a, ⟨.isCancelled .subscription, a⟩ ∈ t → a = true) :
    ∀ e ∈ t, isEffect e.call = false := by
  induction t with
  | nil => exact List.forall_mem_nil _
  | cons e t ih =>
    cases h with
    | cons hturn hrest =>
      obtain ⟨hlook, rfl⟩ := hturn.rests fun a ha => hcancelled a (ha ▸ List.mem_cons_self)
      have hlater := ih hrest fun a ha => hcancelled a (List.mem_cons_of_mem _ ha)
      exact List.forall_mem_cons.mpr ⟨not_effect_of_look hlook, hlater⟩

theorem Moves.busy (h : Moves K volumeId p (e :: t) q) (hp : p = .resolving ∨ p = .polling) :
    isEffect e.call = true := by
  cases h with
  | cons hturn _ => exact hturn.busy hp

theorem Moves.of_starting (h : Moves K volumeId p t .starting) : t = [] := by
  generalize hq : Phase.starting = q at h
  induction h with
  | nil => rfl
  | cons hturn hrest ih =>
    subst hq
    obtain rfl := ih rfl
    cases hrest
    exact absurd rfl hturn.not_starting

theorem Turn.unique (h : Turn K volumeId p e q) (h' : Turn K volumeId p e r) : q = r := by
  cases h with
  | found hno =>
    cases h' with
    | found => rfl
    | missing => exact absurd rfl hno
  | missing =>
    cases h' with
    | found hno => exact absurd rfl hno
    | missing => rfl
  | latest henv =>
    cases h' with
    | latest => rfl
    | noLatest hno => exact absurd henv (hno _ _ rfl)
  | noLatest hno =>
    cases h' with
    | latest henv => exact absurd henv (hno _ _ rfl)
    | noLatest => rfl
  | stored => cases h'; rfl
  | sleeps => cases h'; rfl
  | stops => cases h'; rfl
  | polls => cases h'; rfl
  | @answered c ans hans =>
    generalize eventsGet volumeId c = req at h'
    cases h' with
    | answered => rfl
    | failed hno hgone => exact (hans.elim hno hgone).elim
  | @failed c ans hno hgone =>
    generalize eventsGet volumeId c = req at h'
    cases h' with
    | answered hans => exact (hans.elim hno hgone).elim
    | failed => rfl
  | tells hev =>
    cases h' with
    | tells => rfl
    | removes hev' => rw [hev] at hev'; cases hev'
  | removes hev =>
    cases h' with
    | tells hev' => rw [hev] at hev'; cases hev'
    | removes => rfl
  | persists => cases h'; rfl

/-! ## the task -/

theorem latest_moves (ans : Except Error JsonResponse) :
    ∃ q, Turn K volumeId .resolving ⟨.requestJson (latestGet volumeId), ans⟩ q := by
  by_cases h : ∃ resp latest, ans = .ok resp ∧
      K.Envelopes Events.GetLatestEventIdResponse.ofJson resp.body latest
  · obtain ⟨resp, latest, rfl, henv⟩ := h
    exact ⟨_, .latest henv⟩
  · exact ⟨_, .noLatest fun resp latest hresp henv => h ⟨resp, latest, hresp, henv⟩⟩

theorem fetch_moves (c : String) (ans : Except Error JsonResponse) :
    ∃ q, Turn K volumeId .polling ⟨.requestJson (eventsGet volumeId c), ans⟩ q := by
  by_cases hpage : IsPage K ans
  · exact ⟨_, .answered (.inl hpage)⟩
  · by_cases hgone : Gone K ans
    · exact ⟨_, .answered (.inr hgone)⟩
    · exact ⟨_, .failed hpage hgone⟩

theorem resolve_moves {o : Outcome (Except Fault String)}
    (h : Runs (resolveStartCursor K volumeId).run tr o) :
    ∃ q, Moves K volumeId .starting tr q ∧ ∀ c, o = .done (.ok c) → q = .resting := by
  rcases Runs.call_inv h with ⟨rfl, rfl⟩ | ⟨got, t, rfl, k⟩
  · exact ⟨_, .nil _, nofun⟩
  · match got, k with
    | .error e, k =>
      obtain ⟨rfl, _⟩ := Runs.ret_inv k
      exact ⟨_, .one (.found nofun), fun _ _ => rfl⟩
    | .ok (some c), k =>
      obtain ⟨rfl, _⟩ := Runs.ret_inv k
      exact ⟨_, .one (.found nofun), fun _ _ => rfl⟩
    | .ok none, k =>
      have k : Runs (ExceptT.run (fetchLatestEventId K volumeId >>= fun latest =>
        call (.providerSet latest) >>= fun set => ofExcept id set >>= fun _ =>
          pure latest : Sdk String)) t o := k
      rcases Runs.bindE_inv k with ⟨latest, t₁, u₁, rfl, h₁, k₁⟩ | ⟨o₁, ho, h₁⟩
      · obtain ⟨resp, t₂, u₂, rfl, h₂, k₂⟩ := h₁.bindE_ok
        obtain ⟨rfl, _⟩ := pure_ok k₂
        obtain ⟨answer, rfl, henv⟩ := getChecked_ok h₂
        rcases Runs.call_inv k₁ with ⟨rfl, rfl⟩ | ⟨set, u, rfl, k₃⟩
        · exact ⟨_, .cons .missing (.one (.latest henv)), nofun⟩
        · have hu : u = [] := by
            cases set with
            | ok _ => exact (Runs.ret_inv k₃).1
            | error _ => exact (Runs.ret_inv k₃).1
          subst hu
          exact ⟨_, .cons .missing (.cons (.latest henv) (.one (.stored _ set))), fun _ _ => rfl⟩
      · have htrace : t = [] ∨ ∃ ans, t = [⟨.requestJson (latestGet volumeId), ans⟩] := by
          rcases h₁.bindE_inv with ⟨resp, t₂, u₂, rfl, h₂, k₂⟩ | ⟨_, _, h₂⟩
          · obtain ⟨rfl, _⟩ := Runs.ret_inv k₂
            rw [List.append_nil]
            exact getChecked_trace h₂
          · exact getChecked_trace h₂
        have hnot : ∀ c, o ≠ .done (.ok c) := by
          rintro c rfl
          exact ho.not_ok
        rcases htrace with rfl | ⟨ans, rfl⟩
        · exact ⟨_, .one .missing, fun c hc => absurd hc (hnot c)⟩
        · obtain ⟨q, hturn⟩ := @latest_moves K volumeId ans
          exact ⟨q, .cons .missing (.one hturn), fun c hc => absurd hc (hnot c)⟩

/-- where a drain with the outcome `o` leaves the task -/
structure Leaves (o : Outcome (Except Fault DrainResult)) (q : Phase) : Prop where
  returned : ∀ r, o = .done (.ok r) → q = .polling
  gone : ∀ msg, o = .done (.error (.error (.notFound msg))) → q = .polling
  failed : ∀ e, o = .done (.error (.error e)) → (∀ msg, e ≠ .notFound msg) → q = .resting

theorem Leaves.of_not_error {o : Outcome (Except Fault DrainResult)} {r : DrainResult}
    (ho : o = .running ∨ o = .done (.ok r)) : Leaves o .polling where
  returned := fun _ _ => rfl
  gone := fun _ _ => rfl
  failed := by
    intro e he
    subst he
    exact absurd ho error_not_returned

theorem told_moves (entries : List Events.VolumeEventEntry) {t : Trace host}
    (ht : t <+: told volumeId entries) : Moves K volumeId .polling t .polling := by
  induction entries generalizing t with
  | nil =>
    obtain rfl := List.prefix_nil.mp ht
    exact .nil _
  | cons entry rest ih =>
    rcases List.prefix_cons_iff.mp ht with rfl | ⟨t', rfl, ht'⟩
    · exact .nil _
    · exact .cons (.tells rfl) (ih ht')

theorem drain_turns {o : Outcome (Except Fault DrainResult)}
    (h : Runs (drainVolumeEvents K volumeId fuel cursor).run t o) :
    ∃ q, Moves K volumeId .polling t q ∧ Leaves o q := by
  induction fuel generalizing cursor t with
  | zero =>
    cases h with
    | stop => exact ⟨_, .nil _, ⟨nofun, nofun, nofun⟩⟩
    | cut => exact ⟨_, .nil _, ⟨nofun, nofun, nofun⟩⟩
  | succ fuel ih =>
    rcases h.bindE_inv with ⟨page, t₁, u, rfl, h₁, k⟩ | ⟨o₁, ho, h₁⟩
    · obtain ⟨resp, rfl, henv⟩ := getChecked_ok h₁
      have hpage : Turn K volumeId .polling
          ⟨.requestJson (eventsGet volumeId cursor), .ok resp⟩ .polling :=
        .answered (.inl ⟨resp, page, rfl, henv⟩)
      cases drainPage_cases k with
      | refreshing => exact ⟨_, .one hpage, ⟨nofun, nofun, nofun⟩⟩
      | refreshed _ ho => exact ⟨_, .cons hpage (.one (.tells rfl)), .of_not_error ho⟩
      | empty _ _ ht ho =>
        rcases ht with rfl | rfl
        · exact ⟨_, .one hpage, .of_not_error ho⟩
        · exact ⟨_, .cons hpage (.one (.tells rfl)), .of_not_error ho⟩
      | dispatching _ _ ht => exact ⟨_, .cons hpage (told_moves _ ht), ⟨nofun, nofun, nofun⟩⟩
      | last _ _ _ ho => exact ⟨_, .cons hpage (told_moves _ List.prefix_rfl), .of_not_error ho⟩
      | more _ _ _ _ hnext =>
        obtain ⟨q, hmoves, hleaves⟩ := ih hnext
        exact ⟨q, .cons hpage ((told_moves _ List.prefix_rfl).append hmoves), hleaves⟩
    · by_cases herror : ∃ e, o = .done (.error (.error e))
      · obtain ⟨e, rfl⟩ := herror
        rw [ho.error] at h₁
        obtain ⟨ans, rfl, hgone, hno⟩ := getChecked_fault h₁
        by_cases hans : Gone K ans
        · refine ⟨_, .one (.answered (.inr hans)), nofun, fun _ _ => rfl, ?_⟩
          intro e' he hother
          cases he
          obtain ⟨msg, hmsg⟩ := hgone.mp hans
          exact absurd hmsg (hother msg)
        · have hpage : ¬ IsPage K ans := by
            intro ⟨resp, page, hresp, henv⟩
            exact hno resp page hresp henv
          refine ⟨_, .one (.failed hpage hans), nofun, ?_, fun _ _ _ => rfl⟩
          intro msg he
          cases he
          exact absurd (hgone.mpr ⟨msg, rfl⟩) hans
      · have hleaves : ∀ q, Leaves o q := fun q =>
          { returned := fun r hr => absurd (hr ▸ ho) Outcome.Aborts.not_ok
            gone := fun msg he => absurd ⟨_, he⟩ herror
            failed := fun e he => absurd ⟨e, he⟩ herror }
        rcases getChecked_trace h₁ with rfl | ⟨ans, rfl⟩
        · exact ⟨_, .nil _, hleaves _⟩
        · obtain ⟨q, hturn⟩ := @fetch_moves K volumeId cursor ans
          exact ⟨q, .one hturn, hleaves q⟩

theorem due_moves (retry : Nat) : Moves K volumeId .resting (due retry) .polling :=
  .cons (.sleeps _ _) (.one .polls)

/-- at the head of its loop a task is at rest -/
theorem AtLoop.moves (h : AtLoop K volumeId tr cursor retry) :
    Moves K volumeId .starting tr .resting := by
  induction h with
  | start hresolve =>
    obtain ⟨q, hmoves, hq⟩ := resolve_moves hresolve
    rw [hq _ rfl] at hmoves
    exact hmoves
  | persisted hat hdrain ih =>
    obtain ⟨q, hmoves, hleaves⟩ := drain_turns hdrain
    rw [hleaves.returned _ rfl] at hmoves
    exact ih.append (((due_moves _).append hmoves).append (.one (.persists _ _)))
  | failed hat hdrain he ih =>
    obtain ⟨q, hmoves, hleaves⟩ := drain_turns hdrain
    rw [hleaves.failed _ rfl he] at hmoves
    exact ih.append ((due_moves _).append hmoves)

theorem LastTurn.moves {o : Outcome (Except Fault Unit)} (h : LastTurn K volumeId cursor retry t o) :
    ∃ q, Moves K volumeId .resting t q := by
  cases h with
  | spent => exact ⟨_, .nil _⟩
  | waiting ht =>
    rcases ht with rfl | rfl
    · exact ⟨_, .nil _⟩
    · exact ⟨_, .one (.sleeps _ _)⟩
  | cancelled ht _ =>
    cases ht with
    | asleep => exact ⟨_, .one (.sleeps _ _)⟩
    | awake => exact ⟨_, .cons (.sleeps _ _) (.one .stops)⟩
  | draining hdrain _ _ =>
    obtain ⟨q, hmoves, _⟩ := drain_turns hdrain
    exact ⟨q, (due_moves _).append hmoves⟩
  | drained hdrain =>
    obtain ⟨q, hmoves, _⟩ := drain_turns hdrain
    exact ⟨q, (due_moves _).append hmoves⟩
  | removed hdrain _ =>
    obtain ⟨q, hmoves, hleaves⟩ := drain_turns hdrain
    rw [hleaves.gone _ rfl] at hmoves
    exact ⟨_, ((due_moves _).append hmoves).append (.one (.removes rfl))⟩

theorem task_moves {o : Outcome (Except Fault Unit)}
    (h : Runs (spawnVolumeEventLoop K volumeId fuel).run tr o) :
    ∃ q, Moves K volumeId .starting tr q := by
  rcases task_cases h with ⟨_, hresolve, _⟩ | ⟨tr', cursor, retry, t, rfl, hat, hlast⟩
  · obtain ⟨q, hmoves, _⟩ := resolve_moves hresolve
    exact ⟨q, hmoves⟩
  · obtain ⟨q, hmoves⟩ := hlast.moves
    exact ⟨q, hat.moves.append hmoves⟩

/-! ## cancelling -/

/-- the token is cancelled when the calls `pre` are over, the last of them being the await that was in
progress, and the task then makes the calls `post`: none of them is an effect exactly if there are none,
or the task was at rest, or it had not begun and its provider held a cursor or failed -/
theorem cancel_stops {pre post : Trace host} {o : Outcome (Except Fault Unit)}
    (h : Runs (spawnVolumeEventLoop K volumeId fuel).run (pre ++ post) o)
    (hcancelled : ∀ a, ⟨.isCancelled .subscription, a⟩ ∈ post → a = true) :
    (∀ e ∈ post, isEffect e.call = false) ↔
      post = [] ∨ Moves K volumeId .starting pre .resting ∨
        (pre = [] ∧ ∀ e rest, post ≠ ⟨.providerGet, .ok none⟩ :: e :: rest) := by
  obtain ⟨q, hmoves⟩ := task_moves h
  obtain ⟨p, hpre, hpost⟩ := hmoves.append_inv
  constructor
  · intro hquiet
    cases post with
    | nil => exact .inl rfl
    | cons e rest =>
      have he := hquiet e List.mem_cons_self
      cases p with
      | resting => exact .inr (.inl hpre)
      | resolving => rw [Moves.busy hpost (.inl rfl)] at he; cases he
      | polling => rw [Moves.busy hpost (.inr rfl)] at he; cases he
      | starting =>
        refine .inr (.inr ⟨Moves.of_starting hpre, ?_⟩)
        intro e' rest' hsame
        cases hsame
        cases hpost with
        | cons hturn hrest =>
          cases hturn with
          | found hno => exact hno rfl
          | missing =>
            have he' := hquiet e' (List.mem_cons_of_mem _ List.mem_cons_self)
            rw [Moves.busy hrest (.inl rfl)] at he'
            cases he'
  · rintro (rfl | hrest | ⟨rfl, hget⟩)
    · exact List.forall_mem_nil _
    · obtain rfl := Path.unique (fun h h' => h.unique h') hrest hpre
      exact Moves.rests hpost hcancelled
    · cases hpre
      cases hpost with
      | nil => exact List.forall_mem_nil _
      | @cons _ e _ rest _ hturn hlater =>
        obtain ⟨heffect, rfl | ⟨rfl, rfl⟩⟩ := hturn.starts
        · have hlater := Moves.rests hlater fun a ha => hcancelled a (List.mem_cons_of_mem _ ha)
          exact List.forall_mem_cons.mpr ⟨heffect, hlater⟩
        · cases rest with
          | nil => exact List.forall_mem_cons.mpr ⟨rfl, List.forall_mem_nil _⟩
          | cons e' rest => exact absurd rfl (hget e' rest)

end

/-! ## a small subscription -/

/-- a task whose first wait is over -/
def awake : Trace host :=
  [⟨.providerGet, .ok (some "0")⟩, ⟨.sleepOrCancelled (backoffWait 0), false⟩]

/-- the token is cancelled then: the task looks at it and is over -/
theorem awake_stops :
    Runs (spawnVolumeEventLoop feedCrates "v" 1).run
        (awake ++ [⟨.isCancelled .subscription, true⟩]) (.done (.ok ())) ∧
      ∀ e ∈ ([⟨.isCancelled .subscription, true⟩] : Trace host), isEffect e.call = false := by
  have hloop : Runs (eventLoop feedCrates "v" 1 "0" 0).run
      [⟨.sleepOrCancelled (backoffWait 0), false⟩, ⟨.isCancelled .subscription, true⟩]
      (.done (.ok ())) := .call (.call (.ret _))
  have hrun : Runs (spawnVolumeEventLoop feedCrates "v" 1).run
      (awake ++ [⟨.isCancelled .subscription, true⟩]) (.done (.ok ())) :=
    spawn_started (u := [_, _]) resolve_stored hloop
  have hseen : ∀ a, (⟨.isCancelled .subscription, a⟩ : Event host) ∈
      ([⟨.isCancelled .subscription, true⟩] : Trace host) → a = true := by
    intro a ha
    cases List.mem_singleton.mp ha
    rfl
  exact ⟨hrun, (cancel_stops hrun hseen).mpr
    (.inr (.inl (.cons (.found nofun) (.one (.sleeps _ _)))))⟩

/-- what `resumedLife` does after its first fetch -/
def afterFetch : Trace host :=
  told "v" firstPage.events ++ asked "1" secondPage :: (told "v" secondPage.events ++
    [⟨.providerSet "2", .ok ()⟩])

/-- a token that is cancelled while the first page is fetched: the task passes on both events, makes the
request for the second page and stores the cursor -/
theorem cancelledFetch_continues :
    Runs (spawnVolumeEventLoop feedCrates "v" 3).run
        (firstLife [asked "0" firstPage] ++ afterFetch) .running ∧
      (∀ a, ⟨.isCancelled .subscription, a⟩ ∈ afterFetch → a = true) ∧
      afterFetch.map (fun e => isEffect e.call) = [true, true, true, true] := by
  refine ⟨resumedLife_runs, ?_, rfl⟩
  intro a ha
  have hnot : ∀ e ∈ afterFetch, isLook e.call = false := by
    intro e he
    simp only [afterFetch, told, asked, firstPage, secondPage, List.map_cons, List.map_nil,
      List.cons_append, List.nil_append, List.mem_cons, List.not_mem_nil, or_false] at he
    rcases he with rfl | rfl | rfl | rfl <;> rfl
  cases hnot _ ha

end ProtonDrive
