import ProtonDrive.Events.Log

/-!
# The steps of the event feed

* `getChecked_trace`, `getChecked_ok`   a checked request, at any moment and when it returned;
* `drain_cases`                         a drain is at its request or has got a page;
* `drainPage_cases`                     what it does with the page;
* `drain_passes`                        against a server that is true to its log: at any moment a drain has
                                        passed on the events after its cursor in their order, and when it
                                        returns it has passed on all of them up to its new cursor.
-/

set_option linter.unusedVariables false

namespace ProtonDrive
open Encoding Effects Api

/-! ## requests -/

section
variable {A : HostCall → Prop} {Q : Fault → Prop} {K : Crates}

theorem within_checkCode (hQ : ∀ e, Q (.error e)) (body : Bytes) :
    Within (S := host) A Q (checkCode K body) :=
  Within.bind (within_ofExcept hQ _ _) fun _ => within_require hQ _ _

theorem within_getChecked (hQ : ∀ e, Q (.error e)) {α : Type} {what type : String}
    {dec : Json → Option α} {req : JsonRequest} (hreq : A (.requestJson req)) :
    Within (S := host) A Q (getChecked K what type dec req) := by
  refine Within.bind (within_requestJson hQ hreq) fun _ => ?_
  refine Within.bind (within_checkCode hQ _) fun _ => ?_
  refine Within.bind (within_ofExcept hQ _ _) fun _ => ?_
  exact Within.pure _

end

section
variable {K : Crates} {tr : Trace host}

theorem requestJson_runs {req : JsonRequest} {o : Outcome (Except Fault JsonResponse)}
    (h : Runs (requestJson req).run tr o) : tr = [] ∨ ∃ a, tr = [⟨.requestJson req, a⟩] := by
  rcases h.bindE_inv with ⟨a, t, u, rfl, h₁, k⟩ | ⟨_, _, h₁⟩
  · obtain rfl := call_ok h₁
    obtain rfl := ofExcept_silent k
    exact .inr ⟨a, rfl⟩
  · exact call_runs h₁

theorem getChecked_trace {α : Type} {what type : String} {dec : Json → Option α} {req : JsonRequest}
    {o : Outcome (Except Fault α)} (h : Runs (getChecked K what type dec req).run tr o) :
    tr = [] ∨ ∃ a, tr = [⟨.requestJson req, a⟩] := by
  rcases h.bindE_inv with ⟨resp, t, u, rfl, h₁, k⟩ | ⟨_, _, h₁⟩
  · obtain rfl := requestJson_ok h₁
    have hsilent : Within (S := host) (fun _ => False) (fun _ => True) (do
        checkCode K resp.body
        let env ← ofExcept (fun e => .internal (what ++ ": " ++ e))
          (K.fromSlice ("ResponseEnvelope<" ++ type ++ ">") (ResponseEnvelope.ofJson dec) resp.body)
        return env.inner : Sdk α) :=
      Within.bind (within_checkCode (fun _ => trivial) _) fun _ =>
        Within.bind (within_ofExcept (fun _ => trivial) _ _) fun _ => Within.pure _
    obtain rfl := within_silent hsilent k
    exact .inr ⟨.ok resp, rfl⟩
  · exact requestJson_runs h₁

theorem checkCode_ok {body : Bytes} {u : Unit}
    (h : Runs (checkCode K body).run tr (.done (.ok u))) :
    tr = [] ∧ ∃ error, (K.jsonParse body).bind CodeOnly.ofJson = some ⟨CODE_OK, error⟩ := by
  obtain ⟨head, t₁, u₁, rfl, h₁, k₁⟩ := h.bindE_ok
  obtain ⟨rfl, hhead⟩ := ofExcept_ok h₁
  obtain ⟨rfl, hcode⟩ := require_ok k₁
  have hcode : head.code = CODE_OK := of_decide_eq_true hcode
  refine ⟨rfl, head.error, ?_⟩
  rw [fromSlice_ok hhead, ← hcode]

theorem getChecked_ok {α : Type} {what type : String} {dec : Json → Option α} {req : JsonRequest}
    {a : α} (h : Runs (getChecked K what type dec req).run tr (.done (.ok a))) :
    ∃ resp, tr = [⟨.requestJson req, .ok resp⟩] ∧ K.Envelopes dec resp.body a := by
  obtain ⟨resp, t₁, u₁, rfl, h₁, k₁⟩ := h.bindE_ok
  obtain ⟨_, t₂, u₂, rfl, h₂, k₂⟩ := k₁.bindE_ok
  obtain ⟨env, t₃, u₃, rfl, h₃, k₃⟩ := k₂.bindE_ok
  obtain ⟨rfl, rfl⟩ := pure_ok k₃
  obtain rfl := requestJson_ok h₁
  obtain ⟨rfl, error, hhead⟩ := checkCode_ok h₂
  obtain ⟨rfl, henv⟩ := ofExcept_ok h₃
  have henv := fromSlice_ok henv
  refine ⟨resp, rfl, env.error, ?_⟩
  -- the check and the envelope read the same member `Code`
  have hcode : env.code = CODE_OK := by
    cases hj : K.jsonParse resp.body with
    | none => rw [hj] at henv; cases henv
    | some j =>
      rw [hj] at henv hhead
      simp only [Option.bind_some, ResponseEnvelope.ofJson, Option.bind_eq_bind,
        Option.bind_eq_some_iff, Option.pure_def, Option.some.injEq] at henv
      obtain ⟨c, hc, i, _, e, he, rfl⟩ := henv
      have hprobe : EnvelopeProbe.ofMembers j = some ⟨c, e⟩ := by
        simp [EnvelopeProbe.ofMembers, hc, he]
      rw [Option.bind_some, CodeOnly.ofJson_of_probe hprobe] at hhead
      cases hhead
      rfl
  rw [henv, ← hcode]

/-- an envelope is also what the check reads -/
theorem codeOnly_of_envelopes {α : Type} {dec : Json → Option α} {bs : Bytes} {a : α}
    (h : K.Envelopes dec bs a) :
    ∃ error, (K.jsonParse bs).bind CodeOnly.ofJson = some ⟨CODE_OK, error⟩ := by
  obtain ⟨error, henv⟩ := h
  refine ⟨error, ?_⟩
  cases hj : K.jsonParse bs with
  | none =>
    rw [hj] at henv
    cases henv
  | some j =>
    rw [hj] at henv
    simp only [Option.bind_some, ResponseEnvelope.ofJson, Option.bind_eq_bind,
      Option.bind_eq_some_iff, Option.pure_def, Option.some.injEq] at henv
    obtain ⟨c, hc, i, _, e, he, heq⟩ := henv
    cases heq
    have hprobe : EnvelopeProbe.ofMembers j = some ⟨CODE_OK, error⟩ := by
      simp [EnvelopeProbe.ofMembers, hc, he]
    exact CodeOnly.ofJson_of_probe hprobe

/-- the answer says that the volume is gone -/
def Gone (K : Crates) (ans : Except Error JsonResponse) : Prop :=
  (∃ msg, ans = .error (.notFound msg)) ∨
    ∃ resp head, ans = .ok resp ∧ (K.jsonParse resp.body).bind CodeOnly.ofJson = some head ∧
      head.code = 2501

theorem checkCode_fault {body : Bytes} {e : Error}
    (h : Runs (checkCode K body).run tr (.done (.error (.error e)))) :
    tr = [] ∧ ((∃ msg, e = .notFound msg) ↔
      ∃ head, (K.jsonParse body).bind CodeOnly.ofJson = some head ∧ head.code = 2501) := by
  rcases h.bindE_error with ⟨head, t, u, rfl, h₁, k⟩ | hread
  · obtain ⟨rfl, hhead⟩ := ofExcept_ok h₁
    obtain ⟨rfl, _, he⟩ := require_fault k
    have hhead := fromSlice_ok hhead
    refine ⟨rfl, ?_⟩
    cases he
    by_cases hcode : head.code = 2501
    · rw [if_pos hcode]
      exact ⟨fun _ => ⟨head, hhead, hcode⟩, fun _ => ⟨_, rfl⟩⟩
    · rw [if_neg hcode]
      constructor
      · intro ⟨msg, hmsg⟩
        cases hmsg
      · intro ⟨head', hhead', hcode'⟩
        rw [hhead] at hhead'
        cases hhead'
        exact absurd hcode' hcode
  · obtain ⟨rfl, text, hnone, he⟩ := ofExcept_fault hread
    cases he
    refine ⟨rfl, ?_⟩
    constructor
    · intro ⟨msg, hmsg⟩
      cases hmsg
    · intro ⟨head, hhead, _⟩
      rw [fromSlice_of_some hhead] at hnone
      cases hnone

/-- a checked request that failed: the error is `NotFound` exactly if the answer says so -/
theorem getChecked_fault {α : Type} {what type : String} {dec : Json → Option α} {req : JsonRequest}
    {e : Error} (h : Runs (getChecked K what type dec req).run tr (.done (.error (.error e)))) :
    ∃ ans, tr = [⟨.requestJson req, ans⟩] ∧ (Gone K ans ↔ ∃ msg, e = .notFound msg) ∧
      ∀ resp a, ans = .ok resp → ¬ K.Envelopes dec resp.body a := by
  rcases h.bindE_error with ⟨resp, t, u, rfl, h₁, k⟩ | hreq
  · obtain rfl := requestJson_ok h₁
    have hgone : Gone K (.ok resp) ↔
        ∃ head, (K.jsonParse resp.body).bind CodeOnly.ofJson = some head ∧ head.code = 2501 := by
      constructor
      · rintro (⟨msg, hmsg⟩ | ⟨resp', head, hresp, hhead⟩)
        · cases hmsg
        · cases hresp
          exact ⟨head, hhead⟩
      · intro ⟨head, hhead⟩
        exact .inr ⟨resp, head, rfl, hhead⟩
    rcases k.bindE_error with ⟨_, t₂, u₂, rfl, h₂, k₂⟩ | hcheck
    · obtain ⟨rfl, error, hhead⟩ := checkCode_ok h₂
      rcases k₂.bindE_error with ⟨_, t₃, u₃, rfl, _, k₃⟩ | hread
      · obtain ⟨_, k₃ | k₃⟩ := Runs.ret_inv k₃ <;> cases k₃
      · obtain ⟨rfl, text, hnone, he⟩ := ofExcept_fault hread
        cases he
        refine ⟨.ok resp, rfl, ?_, ?_⟩
        · rw [hgone]
          constructor
          · intro ⟨head', hhead', hcode⟩
            rw [hhead] at hhead'
            cases hhead'
            cases hcode
          · intro ⟨msg, hmsg⟩
            cases hmsg
        · intro resp' a hresp ⟨error, henv⟩
          cases hresp
          rw [fromSlice_of_some henv] at hnone
          cases hnone
    · obtain ⟨rfl, hiff⟩ := checkCode_fault hcheck
      refine ⟨.ok resp, rfl, hgone.trans hiff.symm, ?_⟩
      intro resp' a hresp henv
      cases hresp
      obtain ⟨error, hhead⟩ := codeOnly_of_envelopes henv
      have hpass : Runs (checkCode K resp.body).run [] (.done (.ok ())) := by
        unfold checkCode
        rw [fromSlice_of_some hhead]
        exact .ret _
      cases hcheck.done_unique hpass
  · obtain ⟨e', rfl, he⟩ := requestJson_fault hreq
    cases he
    refine ⟨.error e, rfl, ?_, nofun⟩
    constructor
    · rintro (⟨msg, hmsg⟩ | ⟨resp, head, hresp, _⟩)
      · cases hmsg
        exact ⟨msg, rfl⟩
      · cases hresp
    · rintro ⟨msg, rfl⟩
      exact .inl ⟨msg, rfl⟩

theorem getChecked_runs {α : Type} {what type : String} {dec : Json → Option α} {req : JsonRequest}
    {a : α} {resp : JsonResponse} (h : K.Envelopes dec resp.body a) :
    Runs (getChecked K what type dec req).run [⟨.requestJson req, .ok resp⟩] (.done (.ok a)) := by
  obtain ⟨e, hhead⟩ := codeOnly_of_envelopes h
  obtain ⟨error, henv⟩ := h
  have hcheck : Runs (checkCode K resp.body).run [] (.done (.ok ())) := by
    unfold checkCode
    rw [fromSlice_of_some hhead]
    exact .ret _
  have hread : Runs (ofExcept (fun e => Error.internal (what ++ ": " ++ e))
      (K.fromSlice ("ResponseEnvelope<" ++ type ++ ">") (ResponseEnvelope.ofJson dec) resp.body) >>=
        fun env => pure env.inner : Sdk α).run [] (.done (.ok a)) := by
    rw [fromSlice_of_some henv]
    exact .ret _
  exact Runs.bindE_one (.call (.ret _)) (Runs.bindE_none hcheck hread)

/-! ## pages -/

/-- however it is observed, a dispatch has passed on the first events of the page; it cannot fail -/
theorem dispatchEvents_runs {volumeId : String} {entries : List Events.VolumeEventEntry}
    {o : Outcome (Except Fault Unit)} (h : Runs (dispatchEvents volumeId entries).run tr o) :
    (tr <+: told volumeId entries ∧ o = .running) ∨
      (tr = told volumeId entries ∧ o = .done (.ok ())) := by
  induction entries generalizing tr with
  | nil =>
    obtain ⟨rfl, rfl | rfl⟩ := Runs.ret_inv h
    · exact .inr ⟨rfl, rfl⟩
    · exact .inl ⟨List.prefix_rfl, rfl⟩
  | cons entry rest ih =>
    rcases Runs.call_inv h with ⟨rfl, rfl⟩ | ⟨_, t, rfl, k⟩
    · exact .inl ⟨List.nil_prefix, rfl⟩
    · rcases ih k with ⟨hpre, rfl⟩ | ⟨rfl, rfl⟩
      · exact .inl ⟨(List.prefix_cons_inj _).mpr hpre, rfl⟩
      · exact .inr ⟨rfl, rfl⟩

theorem dispatchEvents_ok {volumeId : String} {entries : List Events.VolumeEventEntry} {u : Unit}
    (h : Runs (dispatchEvents volumeId entries).run tr (.done (.ok u))) :
    tr = told volumeId entries := by
  rcases dispatchEvents_runs h with ⟨_, ho⟩ | ⟨htr, _⟩
  · cases ho
  · exact htr

variable {volumeId cursor : String}

/-- a drain is at its request, or has got a page -/
theorem drain_cases {fuel : Nat} {o : Outcome (Except Fault DrainResult)}
    (h : Runs (drainVolumeEvents K volumeId fuel cursor).run tr o) :
    ((tr = [] ∨ ∃ a, tr = [⟨.requestJson (eventsGet volumeId cursor), a⟩]) ∧
        ∀ r, o ≠ .done (.ok r)) ∨
      ∃ rest resp page t, fuel = rest + 1 ∧
        tr = ⟨.requestJson (eventsGet volumeId cursor), .ok resp⟩ :: t ∧
        K.Envelopes Events.GetVolumeEventsResponse.ofJson resp.body page ∧
        Runs (drainPage volumeId cursor page (drainVolumeEvents K volumeId rest)).run t o := by
  cases fuel with
  | zero =>
    refine .inl ?_
    cases h with
    | stop => exact ⟨.inl rfl, nofun⟩
    | cut => exact ⟨.inl rfl, nofun⟩
  | succ rest =>
    rcases h.bindE_inv with ⟨page, t, u, rfl, h₁, k⟩ | ⟨o₁, ho, h₁⟩
    · obtain ⟨resp, rfl, henv⟩ := getChecked_ok h₁
      exact .inr ⟨rest, resp, page, u, rfl, rfl, henv, k⟩
    · refine .inl ⟨getChecked_trace h₁, ?_⟩
      rintro r rfl
      exact ho.not_ok

/-- a call to the listener and then the end of the drain -/
theorem tell_runs {ev : DriveEvent} {r : DrainResult} {o : Outcome (Except Fault DrainResult)}
    (h : Runs (call (.onEvent ev) >>= fun _ => pure r : Sdk DrainResult).run tr o) :
    (tr = [] ∧ o = .running) ∨
      (tr = [⟨.onEvent ev, ()⟩] ∧ (o = .running ∨ o = .done (.ok r))) := by
  rcases Runs.call_inv h with ⟨rfl, rfl⟩ | ⟨a, t, rfl, k⟩
  · exact .inl ⟨rfl, rfl⟩
  · obtain ⟨rfl, ho⟩ := Runs.ret_inv k
    exact .inr ⟨rfl, ho.symm⟩

/-- what a drain does with a page -/
inductive PageRun (volumeId cursor : String) (page : Events.GetVolumeEventsResponse)
    (next : String → Sdk DrainResult) : Trace host → Outcome (Except Fault DrainResult) → Prop
  | refreshing (h : page.refresh = true) : PageRun volumeId cursor page next [] .running
  | refreshed {o} (h : page.refresh = true)
      (ho : o = .running ∨ o = .done (.ok { cursor := page.eventId, refreshed := true })) :
      PageRun volumeId cursor page next [⟨.onEvent (.treeRefresh (volumeRoot volumeId)), ()⟩] o
  | empty {t o} (h : page.refresh = false) (hnone : page.events = [])
      (ht : t = [] ∨ t = [⟨.onEvent (.fastForward page.eventId), ()⟩])
      (ho : o = .running ∨ o = .done (.ok { cursor := page.eventId, refreshed := false })) :
      PageRun volumeId cursor page next t o
  | dispatching {t} (h : page.refresh = false) (hsome : page.events ≠ [])
      (ht : t <+: told volumeId page.events) : PageRun volumeId cursor page next t .running
  | last {o} (h : page.refresh = false) (hsome : page.events ≠ [])
      (hlast : page.more = false ∨ page.eventId = cursor)
      (ho : o = .running ∨ o = .done (.ok { cursor := page.eventId, refreshed := false })) :
      PageRun volumeId cursor page next (told volumeId page.events) o
  | more {t o} (h : page.refresh = false) (hsome : page.events ≠ []) (hmore : page.more = true)
      (hmoved : page.eventId ≠ cursor) (hnext : Runs (next page.eventId).run t o) :
      PageRun volumeId cursor page next (told volumeId page.events ++ t) o

theorem drainPage_cases {page : Events.GetVolumeEventsResponse} {next : String → Sdk DrainResult}
    {o : Outcome (Except Fault DrainResult)}
    (h : Runs (drainPage volumeId cursor page next).run tr o) :
    PageRun volumeId cursor page next tr o := by
  unfold drainPage at h
  cases hrefresh : page.refresh with
  | true =>
    rw [if_pos hrefresh] at h
    rcases tell_runs h with ⟨rfl, rfl⟩ | ⟨rfl, ho⟩
    · exact .refreshing hrefresh
    · exact .refreshed hrefresh ho
  | false =>
    rw [if_neg (by rw [hrefresh]; exact Bool.false_ne_true)] at h
    by_cases hnone : page.events = []
    · rw [if_pos (by rw [hnone]; rfl)] at h
      by_cases hmoved : page.eventId ≠ cursor
      · rw [if_pos hmoved] at h
        rcases tell_runs h with ⟨rfl, rfl⟩ | ⟨rfl, ho⟩
        · exact .empty hrefresh hnone (.inl rfl) (.inl rfl)
        · exact .empty hrefresh hnone (.inr rfl) ho
      · rw [if_neg hmoved] at h
        obtain ⟨rfl, ho⟩ := Runs.ret_inv h
        exact .empty hrefresh hnone (.inl rfl) ho.symm
    · rw [if_neg (by simpa using hnone)] at h
      rcases h.bindE_inv with ⟨_, t, u, rfl, h₁, k⟩ | ⟨o₁, ho, h₁⟩
      · obtain rfl := dispatchEvents_ok h₁
        cases hmore : page.more with
        | false =>
          rw [hmore] at k
          obtain ⟨rfl, ho⟩ := Runs.ret_inv k
          rw [List.append_nil]
          exact .last hrefresh hnone (.inl hmore) ho.symm
        | true =>
          rw [hmore] at k
          by_cases hsame : page.eventId = cursor
          · change Runs (ExceptT.run (if page.eventId = cursor then pure _ else next page.eventId)) u o
              at k
            rw [if_pos hsame] at k
            obtain ⟨rfl, ho⟩ := Runs.ret_inv k
            rw [List.append_nil]
            exact .last hrefresh hnone (.inr hsame) ho.symm
          · change Runs (ExceptT.run (if page.eventId = cursor then pure _ else next page.eventId)) u o
              at k
            rw [if_neg hsame] at k
            exact .more hrefresh hnone hmore hsame k
      · rcases dispatchEvents_runs h₁ with ⟨hpre, rfl⟩ | ⟨_, rfl⟩
        · rw [ho.of_running]
          exact .dispatching hrefresh hnone hpre
        · exact absurd ho Outcome.Aborts.src_not_ok

/-! ### pages put together -/

theorem drain_error {fuel : Nat} {e : Error} :
    Runs (drainVolumeEvents K volumeId (fuel + 1) cursor).run
      [⟨.requestJson (eventsGet volumeId cursor), .error e⟩] (.done (.error (.error e))) :=
  .call (.ret _)

theorem drain_page {fuel : Nat} {resp : JsonResponse} {page : Events.GetVolumeEventsResponse}
    {o : Outcome (Except Fault DrainResult)}
    (henv : K.Envelopes Events.GetVolumeEventsResponse.ofJson resp.body page)
    (h : Runs (drainPage volumeId cursor page (drainVolumeEvents K volumeId fuel)).run tr o) :
    Runs (drainVolumeEvents K volumeId (fuel + 1) cursor).run
      (⟨.requestJson (eventsGet volumeId cursor), .ok resp⟩ :: tr) o :=
  Runs.bindE_one (getChecked_runs henv) h

theorem dispatchEvents_told (entries : List Events.VolumeEventEntry) :
    Runs (dispatchEvents volumeId entries).run (told volumeId entries) (.done (.ok ())) := by
  induction entries with
  | nil => exact .ret _
  | cons entry rest ih => exact .call ih

theorem drainPage_last {page : Events.GetVolumeEventsResponse} {next : String → Sdk DrainResult}
    (hrefresh : page.refresh = false) (hsome : page.events ≠ []) (hmore : page.more = false) :
    Runs (drainPage volumeId cursor page next).run (told volumeId page.events)
      (.done (.ok { cursor := page.eventId, refreshed := false })) := by
  unfold drainPage
  rw [if_neg (by rw [hrefresh]; exact Bool.false_ne_true), if_neg (by simpa using hsome), hmore]
  rw [← List.append_nil (told volumeId page.events)]
  exact Runs.bindE (dispatchEvents_told _) (.ret _)

theorem drainPage_more {page : Events.GetVolumeEventsResponse} {next : String → Sdk DrainResult}
    {o : Outcome (Except Fault DrainResult)} (hrefresh : page.refresh = false)
    (hsome : page.events ≠ []) (hmore : page.more = true) (hmoved : page.eventId ≠ cursor)
    (h : Runs (next page.eventId).run tr o) :
    Runs (drainPage volumeId cursor page next).run (told volumeId page.events ++ tr) o := by
  unfold drainPage
  rw [if_neg (by rw [hrefresh]; exact Bool.false_ne_true), if_neg (by simpa using hsome), hmore]
  refine Runs.bindE (dispatchEvents_told _) ?_
  show Runs (ExceptT.run (if page.eventId = cursor then pure _ else next page.eventId)) tr o
  rw [if_neg hmoved]
  exact h

/-! ## a drain against an honest server -/

variable {log : EventLog}

/-- the first events after a place, as they are passed on -/
theorem dispatches_take {entries : List Events.VolumeEventEntry} {a n : Nat}
    (h : entries = (log.events.drop a).take n) :
    (entries.map (mapVolumeEvent volumeId)).zipIdx a = ((log.dispatches volumeId).drop a).take n := by
  unfold EventLog.dispatches
  rw [h, ← zipIdx_drop, ← zipIdx_take, List.map_take, List.map_drop]

theorem passedFrom_take {entries : List Events.VolumeEventEntry} {a n : Nat}
    (h : entries = (log.events.drop a).take n) :
    passedFrom log volumeId a (told volumeId entries) =
      ((log.dispatches volumeId).drop a).take n := by
  have htold : passedFrom log volumeId a (told volumeId entries ++ []) = _ := passedFrom_told entries
  rw [List.append_nil, dispatches_take h] at htold
  rw [htold]
  exact List.append_nil _

theorem between_self {α : Type} (l : List α) (a : Nat) : between l a a = [] := by
  unfold between
  rw [Nat.sub_self]
  exact List.take_zero

/-- of an honest page the events are the first ones after the cursor; a page that moves on shows all
of them up to its own id -/
theorem honest_page {page : Events.GetVolumeEventsResponse} (h : log.Honest cursor page)
    (hrefresh : page.refresh = false) :
    (∃ n, page.events = (log.events.drop (log.place cursor)).take n) ∧
      log.place cursor ≤ log.place page.eventId ∧
      (page.eventId = cursor ∨ page.events =
        between log.events (log.place cursor) (log.place page.eventId)) := by
  rcases h with h | ⟨hle, hevents⟩ | ⟨hsame, hpre⟩
  · rw [hrefresh] at h
    cases h
  · exact ⟨⟨_, hevents⟩, hle, .inr hevents⟩
  · refine ⟨⟨_, List.prefix_iff_eq_take.mp hpre⟩, by rw [hsame], .inl hsame⟩

theorem returned {α : Type} {o : Outcome (Except Fault α)} {a b : α}
    (ho : o = .running ∨ o = .done (.ok a)) (h : o = .done (.ok b)) : b = a := by
  rcases ho with rfl | rfl
  · cases h
  · cases h
    rfl

/-- what a drain that stopped at `cursor'` has made sure of -/
def Drained (log : EventLog) (K : Crates) (volumeId : String) (n : Nat) (tr : Trace host) (a b : Nat) :
    Prop :=
  Covers log K volumeId tr b ∨
    between (log.dispatches volumeId) a b <+: passedFrom log volumeId n tr

theorem drain_passes {fuel : Nat} {o : Outcome (Except Fault DrainResult)}
    (h : Runs (drainVolumeEvents K volumeId fuel cursor).run tr o)
    (hlog : EachPage log.Honest K volumeId tr) (n : Nat) :
    passedFrom log volumeId n tr <+: (log.dispatches volumeId).drop (log.place cursor) ∧
      ∀ r, o = .done (.ok r) →
        Drained log K volumeId n tr (log.place cursor) (log.place r.cursor) := by
  induction fuel generalizing cursor tr n with
  | zero =>
    rcases drain_cases h with ⟨htr, ho⟩ | ⟨_, _, _, _, hfuel, _⟩
    · refine ⟨?_, fun r hr => absurd hr (ho r)⟩
      rcases htr with rfl | ⟨a, rfl⟩
      · exact List.nil_prefix
      · exact List.nil_prefix
    · cases hfuel
  | succ fuel ih =>
    rcases drain_cases h with ⟨htr, ho⟩ | ⟨rest, resp, page, t, hfuel, rfl, henv, hpage⟩
    · refine ⟨?_, fun r hr => absurd hr (ho r)⟩
      rcases htr with rfl | ⟨a, rfl⟩
      · exact List.nil_prefix
      · exact List.nil_prefix
    · cases hfuel
      have hhonest := hlog cursor resp page List.mem_cons_self henv
      have hstart : ∀ t, passedFrom log volumeId n
          (⟨.requestJson (eventsGet volumeId cursor), .ok resp⟩ :: t) =
            passedFrom log volumeId (log.place cursor) t := fun t => by
        show passedFrom log volumeId (log.place (cursorOf volumeId (eventsGet volumeId cursor))) t = _
        rw [cursorOf_eventsGet]
      unfold Drained
      simp only [hstart]
      cases drainPage_cases hpage with
      | refreshing hrefresh => exact ⟨List.nil_prefix, nofun⟩
      | refreshed hrefresh ho =>
        refine ⟨List.nil_prefix, ?_⟩
        intro r hr
        rw [returned ho hr]
        exact .inl ⟨cursor, resp, page, List.infix_rfl, henv, hrefresh, rfl⟩
      | empty hrefresh hnone ht ho =>
        have hquiet : ∀ n, passedFrom log volumeId n t = [] := by
          rcases ht with rfl | rfl <;> exact fun _ => rfl
        rw [hquiet]
        refine ⟨List.nil_prefix, ?_⟩
        intro r hr
        rw [returned ho hr]
        obtain ⟨_, _, hsame | hevents⟩ := honest_page hhonest hrefresh
        · rw [hsame, between_self]
          exact .inr List.nil_prefix
        · have hbetween : _ = between (log.dispatches volumeId) (log.place cursor)
              (log.place page.eventId) := dispatches_take hevents
          rw [hnone] at hbetween
          refine .inr ?_
          rw [← hbetween]
          exact List.nil_prefix
      | dispatching hrefresh hsome ht =>
        obtain ⟨⟨m, hevents⟩, _⟩ := honest_page hhonest hrefresh
        refine ⟨?_, nofun⟩
        have htaken : t = told volumeId (page.events.take t.length) := by
          unfold told
          rw [List.map_take]
          exact List.prefix_iff_eq_take.mp ht
        rw [hevents, List.take_take] at htaken
        rw [htaken, passedFrom_take rfl]
        exact List.take_prefix _ _
      | last hrefresh hsome hlast ho =>
        obtain ⟨⟨m, hevents⟩, _, hend⟩ := honest_page hhonest hrefresh
        rw [passedFrom_take hevents]
        refine ⟨List.take_prefix _ _, ?_⟩
        intro r hr
        rw [returned ho hr]
        rcases hend with hsame | hall
        · rw [hsame, between_self]
          exact .inr List.nil_prefix
        · rw [← passedFrom_take hevents, passedFrom_take hall]
          exact .inr List.prefix_rfl
      | more hrefresh hsome hmore hmoved hnext =>
        next u =>
        obtain ⟨_, hle, hend⟩ := honest_page hhonest hrefresh
        have hall := hend.resolve_left hmoved
        have hlog' : EachPage log.Honest K volumeId u := fun c resp page hm =>
          hlog c resp page (List.mem_cons_of_mem _ (List.mem_append_right _ hm))
        obtain ⟨hpre, hdone⟩ := ih hnext hlog' (log.place cursor + page.events.length)
        rw [passedFrom_told, dispatches_take hall]
        change between (log.dispatches volumeId) (log.place cursor) (log.place page.eventId) ++ _ <+: _ ∧
          ∀ r, _ → _ ∨ _ <+: between (log.dispatches volumeId) (log.place cursor)
            (log.place page.eventId) ++ _
        refine ⟨?_, fun r hr => ?_⟩
        · rw [← between_append_drop hle]
          exact (List.prefix_append_right_inj _).mpr hpre
        · rcases hdone r hr with hcov | hbetween
          · refine .inl ?_
            exact @Covers.append_right _ _ _ (_ :: told volumeId page.events) _ _ hcov
          · refine .inr ?_
            rcases Nat.le_total (log.place page.eventId) (log.place r.cursor) with hr' | hr'
            · rw [← between_append hle hr']
              exact (List.prefix_append_right_inj _).mpr hbetween
            · refine List.IsPrefix.trans ?_ (List.prefix_append _ _)
              exact List.take_prefix_take_left (by omega)

end

end ProtonDrive
