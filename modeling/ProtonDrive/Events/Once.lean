import ProtonDrive.Events.Delivery

/-!
# Events that are passed on twice

A drain passes its events on page by page, and its cursor is taken over only when it returns.  If a
fetch fails after the first page, the next drain begins at the old cursor and passes the events of the
first page on again (`failedChain_repeats`).

* `FailsFirst`      a fetch that fails transiently is the first of its chain;
* `drain_fails`     the last call of a drain that failed is the fetch that failed, and the call before it,
                    if there is one, passed an event on;
* `once_unless_fails_later`
                    in a run whose failing fetches all are the first of their chain, no event is passed
                    on twice.
-/

set_option linter.unusedVariables false

namespace ProtonDrive
open Encoding Effects Api

/-- the answer is a page of events -/
def IsPage (K : Crates) (ans : Except Error JsonResponse) : Prop :=
  ∃ resp page, ans = .ok resp ∧ K.Envelopes Events.GetVolumeEventsResponse.ofJson resp.body page

/-- after an event was passed on, the next fetch of the chain yields a page, or says that the volume is
gone -/
def FailsFirst (K : Crates) (volumeId : String) (tr : Trace host) : Prop :=
  ∀ uid kind c ans,
    [⟨.onEvent (.node uid kind), ()⟩, ⟨.requestJson (eventsGet volumeId c), ans⟩] <:+: tr →
      IsPage K ans ∨ Gone K ans

section
variable {K : Crates} {volumeId cursor : String} {tr t : Trace host} {fuel : Nat}

theorem FailsFirst.isInfix (h : FailsFirst K volumeId tr) (ht : t <:+: tr) : FailsFirst K volumeId t :=
  fun uid kind c ans hin => h uid kind c ans (hin.trans ht)

theorem FailsFirst.quiet {e : Event host} (he : isNodeEvent e.call = false)
    (h : FailsFirst K volumeId tr) : FailsFirst K volumeId (e :: tr) := by
  intro uid kind c ans hin
  rcases List.infix_cons_iff.mp hin with hpre | hin
  · obtain ⟨rfl, _⟩ := List.cons_prefix_cons.mp hpre
    cases he
  · exact h uid kind c ans hin

theorem FailsFirst.last (e : Event host) : FailsFirst K volumeId [e] := by
  intro uid kind c ans hin
  have hlen := hin.length_le
  simp at hlen

/-- the fetch that made a drain fail, behind the call before it -/
inductive FailedAt (K : Crates) (volumeId : String) (e : Error) : Trace host → Prop
  | first {c ans} (hno : ¬ IsPage K ans) (hgone : Gone K ans ↔ ∃ msg, e = .notFound msg) :
      FailedAt K volumeId e [⟨.requestJson (eventsGet volumeId c), ans⟩]
  | later {pre uid kind c ans} (hno : ¬ IsPage K ans) (hgone : Gone K ans ↔ ∃ msg, e = .notFound msg) :
      FailedAt K volumeId e (pre ++
        [⟨.onEvent (.node uid kind), ()⟩, ⟨.requestJson (eventsGet volumeId c), ans⟩])

/-- the last call of a drain that failed is the fetch that failed -/
theorem FailedAt.last {e : Error} (h : FailedAt K volumeId e t) :
    ∃ pre c ans, t = pre ++ [⟨.requestJson (eventsGet volumeId c), ans⟩] ∧
      (Gone K ans ↔ ∃ msg, e = .notFound msg) := by
  cases h with
  | @first c ans hno hgone => exact ⟨[], c, ans, rfl, hgone⟩
  | @later pre uid kind c ans hno hgone =>
    exact ⟨pre ++ [⟨.onEvent (.node uid kind), ()⟩], c, ans, by rw [List.append_assoc]; rfl, hgone⟩

theorem told_append (xs ys : List Events.VolumeEventEntry) :
    told volumeId (xs ++ ys) = told volumeId xs ++ told volumeId ys := List.map_append

/-- a page with events, and what came of the fetch after it -/
theorem FailedAt.after {e : Error} {entries : List Events.VolumeEventEntry} (hsome : entries ≠ [])
    (first : Event host) (h : FailedAt K volumeId e t) :
    FailedAt K volumeId e (first :: (told volumeId entries ++ t)) := by
  cases h with
  | @first c ans hno hgone =>
    have hlast : told volumeId entries = told volumeId entries.dropLast ++
        told volumeId [entries.getLast hsome] := by
      rw [← told_append, List.dropLast_append_getLast]
    rw [hlast, List.append_assoc]
    exact @FailedAt.later K volumeId e (first :: told volumeId entries.dropLast) _ _ _ _ hno hgone
  | @later pre uid kind c ans hno hgone =>
    rw [← List.append_assoc, ← List.cons_append]
    exact .later hno hgone

theorem error_not_returned {α : Type} {f : Fault} {a : α} :
    ¬ ((Outcome.done (Except.error f) : Outcome (Except Fault α)) = .running ∨
      (Outcome.done (Except.error f) : Outcome (Except Fault α)) = .done (.ok a)) := by
  intro h
  rcases h with h | h
  · cases h
  · cases h

theorem drain_fails {e : Error}
    (h : Runs (drainVolumeEvents K volumeId fuel cursor).run t (.done (.error (.error e)))) :
    FailedAt K volumeId e t := by
  induction fuel generalizing cursor t with
  | zero => cases h
  | succ fuel ih =>
    rcases h.bindE_error with ⟨page, t₁, u, rfl, h₁, k⟩ | hfetch
    · obtain ⟨resp, rfl, henv⟩ := getChecked_ok h₁
      cases drainPage_cases k with
      | refreshed _ ho => exact absurd ho error_not_returned
      | empty _ _ _ ho => exact absurd ho error_not_returned
      | last _ _ _ ho => exact absurd ho error_not_returned
      | more _ hsome _ _ hnext => exact (ih hnext).after hsome _
    · obtain ⟨ans, rfl, hgone, hno⟩ := getChecked_fault hfetch
      refine .first ?_ hgone
      intro ⟨resp, page, hresp, henv⟩
      exact hno resp page hresp henv

/-- a drain that failed transiently, at its first fetch, has passed nothing on -/
theorem drain_fails_first {e : Error} {log : EventLog} {n : Nat}
    (h : Runs (drainVolumeEvents K volumeId fuel cursor).run t (.done (.error (.error e))))
    (he : ∀ msg, e ≠ .notFound msg) (hfirst : FailsFirst K volumeId t) :
    passedFrom log volumeId n t = [] := by
  cases drain_fails h with
  | first => rfl
  | @later pre uid kind c ans hno hgone =>
    rcases hfirst uid kind c ans (List.suffix_append _ _).isInfix with hpage | hgone'
    · exact absurd hpage hno
    · obtain ⟨msg, hmsg⟩ := hgone.mp hgone'
      exact absurd hmsg (he msg)

variable {log : EventLog}

/-- where the pages end with their last event, a drain that returned has moved its cursor behind all
the events it passed on -/
theorem drain_moves {n : Nat} {r : DrainResult}
    (h : Runs (drainVolumeEvents K volumeId fuel cursor).run t (.done (.ok r)))
    (hlog : EachPage log.Splits K volumeId t) :
    log.place cursor ≤ log.place r.cursor ∧
      ∀ x ∈ passedFrom log volumeId n t, x.2 < log.place r.cursor := by
  induction fuel generalizing cursor t n with
  | zero => cases h
  | succ fuel ih =>
    obtain ⟨page, t₁, u, rfl, h₁, k⟩ := h.bindE_ok
    obtain ⟨resp, rfl, henv⟩ := getChecked_ok h₁
    obtain ⟨hle, hsplit⟩ := hlog cursor resp page List.mem_cons_self henv
    have hstart : passedFrom log volumeId n
        (⟨.requestJson (eventsGet volumeId cursor), .ok resp⟩ :: u) =
          passedFrom log volumeId (log.place cursor) u := by
      show passedFrom log volumeId (log.place (cursorOf volumeId (eventsGet volumeId cursor))) u = _
      rw [cursorOf_eventsGet]
    have hpage : page.refresh = false → ∀ x ∈ (page.events.map (mapVolumeEvent volumeId)).zipIdx
        (log.place cursor), x.2 < log.place page.eventId := by
      intro hrefresh x hx
      have hevents := hsplit.resolve_left (by rw [hrefresh]; exact Bool.false_ne_true)
      have hlen : page.events.length ≤ log.place page.eventId - log.place cursor := by
        rw [hevents]
        exact List.length_take_le _ _
      have hlt := List.snd_lt_of_mem_zipIdx hx
      rw [List.length_map] at hlt
      omega
    simp only [List.singleton_append, hstart]
    cases drainPage_cases k with
    | refreshed hrefresh ho =>
      rw [returned ho rfl]
      exact ⟨hle, List.forall_mem_nil _⟩
    | empty hrefresh hnone ht ho =>
      have hquiet : passedFrom log volumeId (log.place cursor) u = [] := by
        rcases ht with rfl | rfl <;> rfl
      rw [returned ho rfl, hquiet]
      exact ⟨hle, List.forall_mem_nil _⟩
    | last hrefresh hsome hlast ho =>
      have htold : passedFrom log volumeId (log.place cursor) (told volumeId page.events ++ []) = _ :=
        passedFrom_told page.events
      rw [List.append_nil] at htold
      rw [returned ho rfl, htold]
      exact ⟨hle, fun x hx => hpage hrefresh x (by simpa [passedFrom] using hx)⟩
    | @more u' _ hrefresh hsome hmore hmoved hnext =>
      obtain ⟨hle', hrest⟩ := ih (n := log.place cursor + page.events.length) hnext
        fun c resp' page' hm => hlog c resp' page'
          (List.mem_cons_of_mem _ (List.mem_append_right (told volumeId page.events) hm))
      refine ⟨Nat.le_trans hle hle', fun x hx => ?_⟩
      rw [passedFrom_told] at hx
      rcases List.mem_append.mp hx with hx | hx
      · exact Nat.lt_of_lt_of_le (hpage hrefresh x hx) hle'
      · exact hrest x hx

/-! ## runs -/

/-- the places of the events passed on, none of them twice, all of them before `b` -/
def OnceBelow (log : EventLog) (volumeId : String) (tr : Trace host) (b : Nat) : Prop :=
  ((passed log volumeId tr).map Prod.snd).Nodup ∧ ∀ x ∈ passed log volumeId tr, x.2 < b

/-- a drain passes on events from its cursor on, so none of those passed on before -/
theorem OnceBelow.drain {o : Outcome (Except Fault DrainResult)} {d : Trace host}
    (h : OnceBelow log volumeId tr (log.place cursor)) (hd : ∀ e ∈ d, isNodeEvent e.call = false)
    (hdrain : Runs (drainVolumeEvents K volumeId fuel cursor).run t o)
    (hlog : EachPage log.Splits K volumeId t) :
    ((passed log volumeId (tr ++ (d ++ t))).map Prod.snd).Nodup := by
  obtain ⟨hnodup, hbelow⟩ := h
  unfold passed at *
  rw [passedFrom_append, passedFrom_append, passedFrom_eq_nil hd, List.nil_append, List.map_append]
  have hpre := (drain_passes hdrain (hlog.mono fun _ _ => EventLog.Splits.honest)
    (standsAt log volumeId (standsAt log volumeId 0 tr) d)).1
  have hplaces := (hpre.map Prod.snd).sublist
  unfold EventLog.dispatches at hplaces
  rw [List.map_drop, List.zipIdx_map_snd] at hplaces
  have hrange : ((List.range' 0 (log.events.map (mapVolumeEvent volumeId)).length).drop
      (log.place cursor)).Nodup := List.Nodup.sublist (List.drop_sublist _ _) List.nodup_range'
  refine List.Nodup.append hnodup (hrange.sublist hplaces) ?_
  intro n hn hn'
  obtain ⟨x, hx, rfl⟩ := List.mem_map.mp hn
  have hlt := hbelow x hx
  have hge := hplaces.subset hn'
  rw [List.drop_range'] at hge
  have := (List.mem_range'_1.mp hge).1
  omega

theorem due_quiet (retry : Nat) : ∀ e ∈ due retry, isNodeEvent e.call = false := by
  intro e he
  rcases List.mem_cons.mp he with rfl | he
  · rfl
  · rw [List.mem_singleton.mp he]
    rfl

theorem passed_quiet {a b : Trace host} (hb : ∀ e ∈ b, isNodeEvent e.call = false) :
    passed log volumeId (a ++ b) = passed log volumeId a := by
  unfold passed
  rw [passedFrom_append, passedFrom_eq_nil hb, List.append_nil]

theorem resolve_quiet {o : Outcome (Except Fault String)}
    (h : Runs (resolveStartCursor K volumeId).run t o) : ∀ e ∈ t, isNodeEvent e.call = false :=
  h.only (within_resolveStartCursor (A := fun c => isNodeEvent c = false) (Q := fun _ => True)
    (fun _ => trivial) rfl rfl fun _ => rfl).1

/-- from one head of the loop to the next -/
theorem AtLoop.once {retry : Nat} (h : AtLoop K volumeId tr cursor retry)
    (hlog : EachPage log.Splits K volumeId tr) (hfirst : FailsFirst K volumeId tr) :
    OnceBelow log volumeId tr (log.place cursor) := by
  induction h with
  | start hresolve =>
    have hnone : passed log volumeId _ = [] := passedFrom_eq_nil (resolve_quiet hresolve)
    refine ⟨?_, ?_⟩
    · rw [hnone]
      exact List.nodup_nil
    · rw [hnone]
      exact List.forall_mem_nil _
  | @persisted tr cursor retry fuel t r ans hat hdrain ih =>
    obtain ⟨hlog₁, hlog₂⟩ := EachPage.append_iff.mp hlog
    obtain ⟨hlog₂, _⟩ := EachPage.append_iff.mp hlog₂
    obtain ⟨_, hlog₂⟩ := EachPage.append_iff.mp hlog₂
    have hbefore := ih hlog₁ (hfirst.isInfix (List.prefix_append _ _).isInfix)
    have hset : ∀ e ∈ [(⟨.providerSet r.cursor, ans⟩ : Event host)], isNodeEvent e.call = false := by
      intro e he
      rw [List.mem_singleton.mp he]
      rfl
    rw [← List.append_assoc]
    obtain ⟨hmoved, hbelow⟩ := drain_moves
      (n := standsAt log volumeId (standsAt log volumeId 0 tr) (due retry)) hdrain hlog₂
    constructor
    · rw [passed_quiet hset]
      exact hbefore.drain (due_quiet retry) hdrain hlog₂
    · rw [passed_quiet hset]
      unfold passed
      rw [passedFrom_append, passedFrom_append, passedFrom_eq_nil (due_quiet retry), List.nil_append]
      intro x hx
      rcases List.mem_append.mp hx with hx | hx
      · exact Nat.lt_of_lt_of_le (hbefore.2 x hx) hmoved
      · exact hbelow x hx
  | @failed tr cursor retry fuel t e hat hdrain he ih =>
    obtain ⟨hlog₁, hlog₂⟩ := EachPage.append_iff.mp hlog
    have hbefore := ih hlog₁ (hfirst.isInfix (List.prefix_append _ _).isInfix)
    have hnone : ∀ n, passedFrom log volumeId n t = [] := fun n => drain_fails_first hdrain he
      (hfirst.isInfix ((List.suffix_append _ _).trans (List.suffix_append _ _)).isInfix)
    have hsame : passed log volumeId (tr ++ (due retry ++ t)) = passed log volumeId tr := by
      unfold passed
      rw [passedFrom_append, passedFrom_append, passedFrom_eq_nil (due_quiet retry), hnone,
        List.append_nil, List.append_nil]
    unfold OnceBelow
    rw [hsame]
    exact hbefore

/-- in a run in which only the first fetch of a chain fails transiently, no event of the log is passed
to the listener twice -/
theorem once_unless_fails_later {o : Outcome (Except Fault Unit)}
    (h : Runs (spawnVolumeEventLoop K volumeId fuel).run tr o)
    (hlog : EachPage log.Splits K volumeId tr) (hfirst : FailsFirst K volumeId tr) :
    ((passed log volumeId tr).map Prod.snd).Nodup := by
  rcases task_cases h with ⟨o₁, hresolve, _⟩ | ⟨tr', cursor, retry, t, rfl, hat, hlast⟩
  · have hnone : passed log volumeId tr = [] := passedFrom_eq_nil (resolve_quiet hresolve)
    rw [hnone]
    exact List.nodup_nil
  · obtain ⟨hlog₁, hlog₂⟩ := EachPage.append_iff.mp hlog
    have hbefore := hat.once hlog₁ (hfirst.isInfix (List.prefix_append _ _).isInfix)
    have hquiet : ∀ u, (∀ e ∈ u, isNodeEvent e.call = false) →
        ((passed log volumeId (tr' ++ u)).map Prod.snd).Nodup := fun u hu => by
      rw [passed_quiet hu]
      exact hbefore.1
    cases hlast with
    | spent => exact hquiet _ (List.forall_mem_nil _)
    | waiting ht =>
      rcases ht with rfl | rfl
      · exact hquiet _ (List.forall_mem_nil _)
      · exact hquiet _ fun e he => by rw [List.mem_singleton.mp he]; rfl
    | cancelled ht _ =>
      cases ht with
      | asleep => exact hquiet _ fun e he => by rw [List.mem_singleton.mp he]; rfl
      | awake =>
        refine hquiet _ fun e he => ?_
        rcases List.mem_cons.mp he with rfl | he
        · rfl
        · rw [List.mem_singleton.mp he]
          rfl
    | draining hdrain _ _ =>
      exact hbefore.drain (due_quiet retry) hdrain (EachPage.append_iff.mp hlog₂).2
    | drained hdrain =>
      exact hbefore.drain (due_quiet retry) hdrain (EachPage.append_iff.mp hlog₂).2
    | removed hdrain _ =>
      rw [← List.append_assoc, passed_quiet fun e he => by rw [List.mem_singleton.mp he]; rfl]
      have hlog₃ := (EachPage.append_iff.mp hlog₂).1
      exact hbefore.drain (due_quiet retry) hdrain (EachPage.append_iff.mp hlog₃).2

end

/-! ## a chain that fails after its first page -/

/-- the first page is passed on, and the fetch of the second fails -/
def failedChain : Trace host :=
  asked "0" firstPage :: (told "v" firstPage.events ++
    [⟨.requestJson (eventsGet "v" "1"), .error (.network "timeout")⟩])

theorem failedChain_runs (fuel : Nat) :
    Runs (drainVolumeEvents feedCrates "v" (fuel + 2) "0").run failedChain
      (.done (.error (.error (.network "timeout")))) :=
  drain_page firstPage_read (drainPage_more rfl (List.cons_ne_nil _ _) rfl (by decide) drain_error)

/-- the drain that fails, and the next one -/
def repeatedLife : Trace host := firstLife (failedChain ++ (due 1 ++ firstDrained))

theorem repeatedLife_runs : Runs (spawnVolumeEventLoop feedCrates "v" 4).run repeatedLife .running :=
  spawn_started resolve_stored (eventLoop_failed (failedChain_runs 1) nofun
    (eventLoop_draining (firstDrained_runs 0)))

theorem failedChain_splits : EachPage smallLog.Splits feedCrates "v" failedChain :=
  .page firstPage_read ⟨by decide, .inr rfl⟩ (.other nofun (.failed .nil))

/-- the server is true to the log, and its pages end with their last events; the first event is passed
on twice -/
theorem failedChain_repeats :
    ∃ tr, Runs (spawnVolumeEventLoop feedCrates "v" 4).run tr .running ∧
      EachPage smallLog.Splits feedCrates "v" tr ∧ ¬ ((passed smallLog "v" tr).map Prod.snd).Nodup :=
  ⟨repeatedLife, repeatedLife_runs,
    firstLife_splits (EachPage.append_iff.mpr ⟨failedChain_splits,
      .other nofun (.other nofun firstDrained_splits)⟩), by decide +kernel⟩

/-- a life whose first drain fails at its first fetch -/
def retriedLife : Trace host :=
  firstLife ([⟨.requestJson (eventsGet "v" "0"), .error (.network "timeout")⟩] ++ (due 1 ++ firstDrained))

theorem retriedLife_once : ((passed smallLog "v" retriedLife).map Prod.snd).Nodup := by
  have hrun : Runs (spawnVolumeEventLoop feedCrates "v" 4).run retriedLife .running :=
    spawn_started resolve_stored (eventLoop_failed drain_error nofun
      (eventLoop_draining (firstDrained_runs 0)))
  have hfirst : FailsFirst feedCrates "v" retriedLife :=
    .quiet rfl (.quiet rfl (.quiet rfl (.quiet rfl (.quiet rfl (.quiet rfl (.quiet rfl (.last _)))))))
  exact once_unless_fails_later hrun
    (firstLife_splits (.failed (.other nofun (.other nofun firstDrained_splits)))) hfirst

end ProtonDrive
