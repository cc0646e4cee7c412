import ProtonDrive.Events.Drain

/-!
# The turns of the subscription task

* `AtLoop`               the task has come back to the head of its loop, with these values of `cursor`
                         and `retry`;
* `LastTurn`             what the task has done since, when it is observed at any point;
* `task_cases`           a run of the task has not resolved its start cursor, or is a way to the head of
                         the loop and then a `LastTurn`;
* `HoldsCursor`                the value of the variable `cursor` at such a point.
-/

set_option linter.unusedVariables false

namespace ProtonDrive
open Encoding Effects Api

/-! ## parts of a turn -/

section
variable {tr : Trace host}

/-- an attempt is over when what it attempts is over, unless that panicked -/
theorem attempt_cases {α : Type} {p : Sdk α} {o : Outcome (Except Fault (Except Error α))}
    (hp : Within (S := host) (fun _ => True) Fault.IsError p)
    (h : Runs (attempt p).run tr o) :
    (∃ a, Runs p.run tr (.done (.ok a)) ∧ (o = .running ∨ o = .done (.ok (.ok a)))) ∨
      (∃ e, Runs p.run tr (.done (.error (.error e))) ∧
        (o = .running ∨ o = .done (.ok (.error e)))) ∨
      (Runs p.run tr .running ∧ o = .running) ∨ (Runs p.run tr .cut ∧ o = .cut) := by
  rcases Runs.bind_inv h with ⟨r, t, u, rfl, h₁, k⟩ | ⟨o₁, ho, h₁⟩
  · match r, h₁, k with
    | .ok a, h₁, k =>
      obtain ⟨rfl, ho⟩ := Runs.ret_inv k
      rw [List.append_nil]
      exact .inl ⟨a, h₁, ho.symm⟩
    | .error (.error e), h₁, k =>
      obtain ⟨rfl, ho⟩ := Runs.ret_inv k
      rw [List.append_nil]
      exact .inr (.inl ⟨e, h₁, ho.symm⟩)
    | .error (.panicked msg), h₁, _ => exact absurd h₁ (not_panicked hp)
  · rcases ho.eq with ⟨rfl, rfl⟩ | ⟨rfl, rfl⟩
    · exact .inr (.inr (.inl ⟨h₁, rfl⟩))
    · exact .inr (.inr (.inr ⟨h₁, rfl⟩))

/-- the two looks at the token before a poll -/
def due (retry : Nat) : Trace host :=
  [⟨.sleepOrCancelled (backoffWait retry), false⟩, ⟨.isCancelled .subscription, false⟩]

/-- the token was seen cancelled -/
inductive SawCancelled (retry : Nat) : Trace host → Prop
  | asleep : SawCancelled retry [⟨.sleepOrCancelled (backoffWait retry), true⟩]
  | awake : SawCancelled retry
      [⟨.sleepOrCancelled (backoffWait retry), false⟩, ⟨.isCancelled .subscription, true⟩]

theorem pollDue_cases {retry : Nat} {o : Outcome (Except Fault Bool)}
    (h : Runs (pollDue retry).run tr o) :
    ((tr = [] ∨ tr = [⟨.sleepOrCancelled (backoffWait retry), false⟩]) ∧ o = .running) ∨
      (SawCancelled retry tr ∧ (o = .running ∨ o = .done (.ok false))) ∨
      (tr = due retry ∧ (o = .running ∨ o = .done (.ok true))) := by
  rcases Runs.call_inv h with ⟨rfl, rfl⟩ | ⟨woken, t, rfl, k⟩
  · exact .inl ⟨.inl rfl, rfl⟩
  · match woken, k with
    | true, k =>
      obtain ⟨rfl, ho⟩ := Runs.ret_inv k
      exact .inr (.inl ⟨.asleep, ho.symm⟩)
    | false, k =>
      rcases Runs.call_inv k with ⟨rfl, rfl⟩ | ⟨cancelled, u, rfl, k'⟩
      · exact .inl ⟨.inr rfl, rfl⟩
      · match cancelled, k' with
        | true, k' =>
          obtain ⟨rfl, ho⟩ := Runs.ret_inv k'
          exact .inr (.inl ⟨.awake, ho.symm⟩)
        | false, k' =>
          obtain ⟨rfl, ho⟩ := Runs.ret_inv k'
          exact .inr (.inr ⟨rfl, ho.symm⟩)

end

section
variable {A : HostCall → Prop} {Q : Fault → Prop} {K : Crates} {volumeId : String}

theorem within_dispatchEvents (htell : ∀ entry, A (.onEvent (mapVolumeEvent volumeId entry)))
    (entries : List Events.VolumeEventEntry) :
    Within (S := host) A Q (dispatchEvents volumeId entries) := by
  induction entries with
  | nil => exact Within.pure ()
  | cons entry rest ih => exact Within.bind (within_call (htell entry)) fun _ => ih

/-- the events a drain can dispatch -/
inductive Drains (volumeId : String) : DriveEvent → Prop
  | mapped (entry) : Drains volumeId (mapVolumeEvent volumeId entry)
  | refresh : Drains volumeId (.treeRefresh (volumeRoot volumeId))
  | forward (c) : Drains volumeId (.fastForward c)

theorem within_drain (hQ : ∀ e, Q (.error e)) (hget : ∀ c, A (.requestJson (eventsGet volumeId c)))
    (htell : ∀ ev, Drains volumeId ev → A (.onEvent ev)) {fuel : Nat}
    {cursor : String} : Within (S := host) A Q (drainVolumeEvents K volumeId fuel cursor) := by
  induction fuel generalizing cursor with
  | zero => exact ⟨trivial, trivial⟩
  | succ fuel ih =>
    refine Within.bind (within_getChecked hQ (hget cursor)) fun page => ?_
    unfold drainPage
    split
    · exact Within.bind (within_call (htell _ .refresh)) fun _ => Within.pure _
    · split
      · split
        · exact Within.bind (within_call (htell _ (.forward _))) fun _ => Within.pure _
        · exact Within.pure _
      · refine Within.bind (within_dispatchEvents (fun entry => htell _ (.mapped entry)) _) fun _ => ?_
        split
        · exact Within.pure _
        · split
          · exact Within.pure _
          · exact ih

theorem within_resolveStartCursor (hQ : ∀ e, Q (.error e))
    (hlatest : A (.requestJson (latestGet volumeId))) (hprovider : A .providerGet)
    (hset : ∀ c, A (.providerSet c)) :
    Within (S := host) A Q (resolveStartCursor K volumeId) := by
  refine Within.bind (within_call hprovider) fun got => ?_
  refine Within.bind (within_ofExcept hQ id got) fun stored => ?_
  split
  · exact Within.pure _
  · refine Within.bind (Within.bind (within_getChecked hQ hlatest) fun _ => Within.pure _) fun _ => ?_
    refine Within.bind (within_call (hset _)) fun set => ?_
    exact Within.bind (within_ofExcept hQ id set) fun _ => Within.pure _

end

/-! ## turns -/

section
variable (K : Crates) (volumeId : String)

/-- the task has made the calls `tr` and is at the head of its loop -/
inductive AtLoop : Trace host → (cursor : String) → (retry : Nat) → Prop
  | start {tr cursor} (h : Runs (resolveStartCursor K volumeId).run tr (.done (.ok cursor))) :
      AtLoop tr cursor 0
  | persisted {tr cursor retry fuel t r a} (h : AtLoop tr cursor retry)
      (hdrain : Runs (drainVolumeEvents K volumeId fuel cursor).run t (.done (.ok r))) :
      AtLoop (tr ++ (due retry ++ t ++ [⟨.providerSet r.cursor, a⟩])) r.cursor 0
  | failed {tr cursor retry fuel t e} (h : AtLoop tr cursor retry)
      (hdrain : Runs (drainVolumeEvents K volumeId fuel cursor).run t (.done (.error (.error e))))
      (he : ∀ msg, e ≠ .notFound msg) :
      AtLoop (tr ++ (due retry ++ t)) cursor (saturatingSucc retry)

/-- what the task has done since it was at the head of its loop -/
inductive LastTurn (cursor : String) (retry : Nat) : Trace host → Outcome (Except Fault Unit) → Prop
  | spent : LastTurn cursor retry [] .cut
  | waiting {t} (ht : t = [] ∨ t = [⟨.sleepOrCancelled (backoffWait retry), false⟩]) :
      LastTurn cursor retry t .running
  | cancelled {t o} (ht : SawCancelled retry t) (ho : o = .running ∨ o = .done (.ok ())) :
      LastTurn cursor retry t o
  | draining {fuel t o₁ o} (h : Runs (drainVolumeEvents K volumeId fuel cursor).run t o₁)
      (hno : ∀ r, o₁ ≠ .done (.ok r)) (ho : o = .running ∨ o = .cut) :
      LastTurn cursor retry (due retry ++ t) o
  | drained {fuel t r} (h : Runs (drainVolumeEvents K volumeId fuel cursor).run t (.done (.ok r))) :
      LastTurn cursor retry (due retry ++ t) .running
  | removed {fuel t msg o}
      (h : Runs (drainVolumeEvents K volumeId fuel cursor).run t
        (.done (.error (.error (.notFound msg)))))
      (ho : o = .running ∨ o = .done (.ok ())) :
      LastTurn cursor retry
        (due retry ++ t ++ [⟨.onEvent (.treeRemoval (volumeRoot volumeId)), ()⟩]) o

/-- the variable `cursor` of the task has the value `c`: it is set when a drain returns -/
inductive HoldsCursor : Trace host → (c : String) → Prop
  | unchanged {tr cursor retry t o} (h : AtLoop K volumeId tr cursor retry)
      (ht : LastTurn K volumeId cursor retry t o)
      (hsame : ∀ fuel u r, t = due retry ++ u →
        ¬ Runs (drainVolumeEvents K volumeId fuel cursor).run u (.done (.ok r))) :
      HoldsCursor (tr ++ t) cursor
  | drained {tr cursor retry fuel t r} (h : AtLoop K volumeId tr cursor retry)
      (hdrain : Runs (drainVolumeEvents K volumeId fuel cursor).run t (.done (.ok r))) :
      HoldsCursor (tr ++ (due retry ++ t)) r.cursor

variable {K volumeId}

theorem drain_isError {fuel : Nat} {cursor : String} :
    Within (S := host) (fun _ => True) Fault.IsError (drainVolumeEvents K volumeId fuel cursor) :=
  within_drain (fun _ => trivial) (fun _ => trivial) fun _ _ => trivial

theorem loop_cases {fuel : Nat} {cursor : String} {retry : Nat} {tr t : Trace host}
    {o : Outcome (Except Fault Unit)} (hat : AtLoop K volumeId tr cursor retry)
    (h : Runs (eventLoop K volumeId fuel cursor retry).run t o) :
    ∃ tr' cursor' retry' t', tr ++ t = tr' ++ t' ∧ AtLoop K volumeId tr' cursor' retry' ∧
      LastTurn K volumeId cursor' retry' t' o := by
  induction fuel generalizing cursor retry tr t with
  | zero =>
    refine ⟨tr, cursor, retry, t, rfl, hat, ?_⟩
    cases h with
    | stop => exact .waiting (.inl rfl)
    | cut => exact .spent
  | succ fuel ih =>
    rcases h.bindE_inv with ⟨go, t₁, u, rfl, h₁, k⟩ | ⟨o₁, ho, h₁⟩
    · rcases pollDue_cases h₁ with ⟨_, hgo⟩ | ⟨hsaw, hgo⟩ | ⟨rfl, hgo⟩
      · cases hgo
      · obtain rfl : go = false := returned hgo rfl
        obtain ⟨rfl, ho⟩ := Runs.ret_inv k
        refine ⟨tr, cursor, retry, t₁ ++ [], rfl, hat, ?_⟩
        rw [List.append_nil]
        exact .cancelled hsaw ho.symm
      · obtain rfl : go = true := returned hgo rfl
        rcases Runs.bindE_inv k with ⟨res, t₂, u₂, rfl, h₂, k₂⟩ | ⟨o₂, ho, h₂⟩
        · rcases attempt_cases drain_isError h₂ with ⟨r, hr, ho⟩ | ⟨e, he, ho⟩ | ⟨_, ho⟩ | ⟨_, ho⟩
          · obtain rfl : res = .ok r := returned ho rfl
            rcases Runs.call_inv k₂ with ⟨rfl, rfl⟩ | ⟨a, u₃, rfl, k₃⟩
            · refine ⟨tr, cursor, retry, due retry ++ (t₂ ++ []), rfl, hat, ?_⟩
              rw [List.append_nil]
              exact .drained hr
            · obtain ⟨tr', cursor', retry', t', htr, hat', hlast⟩ :=
                ih (hat.persisted (a := a) hr) k₃
              exact ⟨tr', cursor', retry', t', by rw [← htr]; simp, hat', hlast⟩
          · obtain rfl : res = .error e := returned ho rfl
            by_cases hgone : ∃ msg, e = .notFound msg
            · obtain ⟨msg, rfl⟩ := hgone
              rcases Runs.call_inv k₂ with ⟨rfl, rfl⟩ | ⟨_, u₃, rfl, k₃⟩
              · refine ⟨tr, cursor, retry, due retry ++ (t₂ ++ []), rfl, hat, ?_⟩
                rw [List.append_nil]
                exact .draining he nofun (.inl rfl)
              · obtain ⟨rfl, ho⟩ := Runs.ret_inv k₃
                refine ⟨tr, cursor, retry, due retry ++ (t₂ ++ [_]), rfl, hat, ?_⟩
                rw [← List.append_assoc]
                exact .removed he ho.symm
            · have hother : ∀ msg, e ≠ .notFound msg := fun msg he => hgone ⟨msg, he⟩
              have hloop : Runs (eventLoop K volumeId fuel cursor (saturatingSucc retry)).run u₂ o := by
                cases e with
                | notFound msg => exact absurd rfl (hother msg)
                | _ => exact k₂
              obtain ⟨tr', cursor', retry', t', htr, hat', hlast⟩ := ih (hat.failed he hother) hloop
              exact ⟨tr', cursor', retry', t', by rw [← htr]; simp, hat', hlast⟩
          · cases ho
          · cases ho
        · refine ⟨tr, cursor, retry, due retry ++ u, rfl, hat, ?_⟩
          rcases attempt_cases drain_isError h₂ with ⟨r, hr, rfl | rfl⟩ | ⟨e, he, rfl | rfl⟩ |
            ⟨hrun, rfl⟩ | ⟨hcut, rfl⟩
          · rw [ho.of_running]
            exact .drained hr
          · exact absurd ho Outcome.Aborts.src_not_ok
          · rw [ho.of_running]
            exact .draining he nofun (.inl rfl)
          · exact absurd ho Outcome.Aborts.src_not_ok
          · rw [ho.of_running]
            exact .draining hrun nofun (.inl rfl)
          · rw [ho.of_cut]
            exact .draining hcut nofun (.inr rfl)
    · refine ⟨tr, cursor, retry, t, rfl, hat, ?_⟩
      rcases pollDue_cases h₁ with ⟨ht, rfl⟩ | ⟨hsaw, rfl | rfl⟩ | ⟨rfl, rfl | rfl⟩
      · rw [ho.of_running]
        exact .waiting ht
      · rw [ho.of_running]
        exact .cancelled hsaw (.inl rfl)
      · exact absurd ho Outcome.Aborts.src_not_ok
      · rw [ho.of_running]
        have hstop : LastTurn K volumeId cursor retry (due retry ++ []) .running :=
          .draining (.stop (drainVolumeEvents K volumeId 0 cursor).run) nofun (.inl rfl)
        rwa [List.append_nil] at hstop
      · exact absurd ho Outcome.Aborts.src_not_ok

/-- a run of the task has not resolved its start cursor, or has come to the head of its loop -/
theorem task_cases {fuel : Nat} {tr : Trace host} {o : Outcome (Except Fault Unit)}
    (h : Runs (spawnVolumeEventLoop K volumeId fuel).run tr o) :
    (∃ o₁, Runs (resolveStartCursor K volumeId).run tr o₁ ∧ (∀ c, o₁ ≠ .done (.ok c)) ∧
        (o = .running ∨ o = .cut ∨ ∃ e, o₁ = .done (.error (.error e)) ∧ o = .done (.ok ()))) ∨
      ∃ tr' cursor retry t, tr = tr' ++ t ∧ AtLoop K volumeId tr' cursor retry ∧
        LastTurn K volumeId cursor retry t o := by
  have hresolve : Within (S := host) (fun _ => True) Fault.IsError (resolveStartCursor K volumeId) :=
    within_resolveStartCursor (fun _ => trivial) trivial trivial fun _ => trivial
  rcases h.bindE_inv with ⟨res, t, u, rfl, h₁, k⟩ | ⟨o₁, ho, h₁⟩
  · rcases attempt_cases hresolve h₁ with ⟨c, hc, hres⟩ | ⟨e, he, hres⟩ | ⟨_, hres⟩ | ⟨_, hres⟩
    · obtain rfl : res = .ok c := returned hres rfl
      exact .inr (loop_cases (.start hc) k)
    · obtain rfl : res = .error e := returned hres rfl
      obtain ⟨rfl, ho⟩ := Runs.ret_inv k
      rw [List.append_nil]
      refine .inl ⟨_, he, nofun, ?_⟩
      rcases ho with ho | ho
      · exact .inr (.inr ⟨e, rfl, ho⟩)
      · exact .inl ho
    · cases hres
    · cases hres
  · rcases attempt_cases hresolve h₁ with ⟨c, hc, rfl | rfl⟩ | ⟨e, he, rfl | rfl⟩ | ⟨hrun, rfl⟩ |
      ⟨hcut, rfl⟩
    · rw [ho.of_running]
      exact .inr ⟨tr, c, 0, [], (List.append_nil tr).symm, .start hc, .waiting (.inl rfl)⟩
    · exact absurd ho Outcome.Aborts.src_not_ok
    · exact .inl ⟨_, he, nofun, .inl ho.of_running⟩
    · exact absurd ho Outcome.Aborts.src_not_ok
    · exact .inl ⟨_, hrun, nofun, .inl ho.of_running⟩
    · exact .inl ⟨_, hcut, nofun, .inr (.inl ho.of_cut)⟩

/-! ### turns put together -/

variable {fuel : Nat} {cursor : String} {retry : Nat} {t u : Trace host}

theorem attempt_of_ok {α : Type} {p : Sdk α} {a : α} (h : Runs p.run t (.done (.ok a))) :
    Runs (attempt p).run t (.done (.ok (.ok a))) := by
  rw [← List.append_nil t]
  exact Runs.bind h (.ret _)

theorem attempt_of_error {α : Type} {p : Sdk α} {e : Error}
    (h : Runs p.run t (.done (.error (.error e)))) :
    Runs (attempt p).run t (.done (.ok (.error e))) := by
  rw [← List.append_nil t]
  exact Runs.bind h (.ret _)

theorem pollDue_due (retry : Nat) : Runs (pollDue retry).run (due retry) (.done (.ok true)) :=
  .call (.call (.ret _))

theorem eventLoop_drained {r : DrainResult} {a : Except Error Unit} {o : Outcome (Except Fault Unit)}
    (hdrain : Runs (drainVolumeEvents K volumeId fuel cursor).run t (.done (.ok r)))
    (h : Runs (eventLoop K volumeId fuel r.cursor 0).run u o) :
    Runs (eventLoop K volumeId (fuel + 1) cursor retry).run
      (due retry ++ (t ++ ⟨.providerSet r.cursor, a⟩ :: u)) o :=
  Runs.bindE (pollDue_due retry) (Runs.bindE (attempt_of_ok hdrain) (.call h))

theorem eventLoop_failed {e : Error} {o : Outcome (Except Fault Unit)}
    (hdrain : Runs (drainVolumeEvents K volumeId fuel cursor).run t (.done (.error (.error e))))
    (he : ∀ msg, e ≠ .notFound msg)
    (h : Runs (eventLoop K volumeId fuel cursor (saturatingSucc retry)).run u o) :
    Runs (eventLoop K volumeId (fuel + 1) cursor retry).run (due retry ++ (t ++ u)) o := by
  refine Runs.bindE (pollDue_due retry) (Runs.bindE (attempt_of_error hdrain) ?_)
  cases e with
  | notFound msg => exact absurd rfl (he msg)
  | _ => exact h

theorem eventLoop_draining (h : Runs (drainVolumeEvents K volumeId fuel cursor).run t .running) :
    Runs (eventLoop K volumeId (fuel + 1) cursor retry).run (due retry ++ t) .running :=
  Runs.bindE (pollDue_due retry) (Runs.bind_running (Runs.bind_running h))

theorem spawn_started {o : Outcome (Except Fault Unit)}
    (hstart : Runs (resolveStartCursor K volumeId).run t (.done (.ok cursor)))
    (h : Runs (eventLoop K volumeId fuel cursor 0).run u o) :
    Runs (spawnVolumeEventLoop K volumeId fuel).run (t ++ u) o :=
  Runs.bindE (attempt_of_ok hstart) h

/-- a provider that holds a cursor -/
theorem resolve_stored : Runs (resolveStartCursor K volumeId).run
    [⟨.providerGet, .ok (some cursor)⟩] (.done (.ok cursor)) := .call (.ret _)

end

end ProtonDrive
