import ProtonDrive.Events.Once

/-!
# How an event feed ends

* `StartFailed`     the calls of a task that could not resolve its start cursor;
* `Ended`           the three ways a task comes to its end: that one, a token that was seen cancelled, and a
                    volume that is gone, after which the listener got one removal;
* `feed_ends`       a task that is over has come to its end in one of these ways; so a task that has
                    resolved its start cursor, has not seen its token cancelled and has told of no removal
                    is not over.

The end of a task with `StartFailed` is silent: the listener is told nothing, and the token of the
subscription is not touched (`failedStart_ends`).
-/

set_option linter.unusedVariables false

namespace ProtonDrive
open Encoding Effects Api

def isRemoval : HostCall → Bool
  | .onEvent (.treeRemoval _) => true
  | _ => false

/-- the removals the listener was told of -/
def removals (tr : Trace host) : Trace host := tr.filter fun e => isRemoval e.call

section
variable {tr tr' : Trace host}

@[simp] theorem removals_append : removals (tr ++ tr') = removals tr ++ removals tr' :=
  List.filter_append ..

theorem removals_eq_nil (h : ∀ e ∈ tr, isRemoval e.call = false) : removals tr = [] :=
  List.filter_eq_nil_iff.mpr fun e he => by rw [h e he]; exact Bool.false_ne_true

end

section
variable (K : Crates) (volumeId : String)

/-- the provider does not say what it holds, or it holds nothing and the newest id of the server cannot
be had or cannot be stored -/
inductive StartFailed : Trace host → Prop
  | provider (e) : StartFailed [⟨.providerGet, .error e⟩]
  | latest (ans) (hno : ∀ resp latest, ans = .ok resp →
      ¬ K.Envelopes Events.GetLatestEventIdResponse.ofJson resp.body latest) :
      StartFailed [⟨.providerGet, .ok none⟩, ⟨.requestJson (latestGet volumeId), ans⟩]
  | store (resp latest e) : StartFailed [⟨.providerGet, .ok none⟩,
      ⟨.requestJson (latestGet volumeId), .ok resp⟩, ⟨.providerSet latest, .error e⟩]

/-- the ways a task comes to its end -/
inductive Ended : Trace host → Prop
  | unresolved {tr} (h : StartFailed K volumeId tr) : Ended tr
  | cancelled {tr t retry} (h : SawCancelled retry t) (hno : removals (tr ++ t) = []) : Ended (tr ++ t)
  | removed {tr c ans} (hgone : Gone K ans) (hno : removals tr = []) :
      Ended (tr ++ [⟨.requestJson (eventsGet volumeId c), ans⟩,
        ⟨.onEvent (.treeRemoval (volumeRoot volumeId)), ()⟩])

variable {K volumeId} {tr t : Trace host} {cursor : String} {retry fuel : Nat}

theorem resolve_fails {e : Error}
    (h : Runs (resolveStartCursor K volumeId).run tr (.done (.error (.error e)))) :
    StartFailed K volumeId tr := by
  rcases h.bindE_error with ⟨got, t₁, u, rfl, h₁, k₁⟩ | hcall
  · obtain rfl := call_ok h₁
    rcases k₁.bindE_error with ⟨stored, t₂, u₂, rfl, h₂, k₂⟩ | hread
    · obtain ⟨rfl, rfl⟩ := ofExcept_ok h₂
      cases stored with
      | some cursor => obtain ⟨_, k₂ | k₂⟩ := Runs.ret_inv k₂ <;> cases k₂
      | none =>
        rcases Runs.bindE_error k₂ with ⟨latest, t₃, u₃, rfl, h₃, k₃⟩ | hlatest
        · obtain ⟨resp, t₄, u₄, rfl, h₄, k₄⟩ := h₃.bindE_ok
          obtain ⟨rfl, _⟩ := pure_ok k₄
          obtain ⟨answer, rfl, _⟩ := getChecked_ok h₄
          rcases k₃.bindE_error with ⟨set, t₅, u₅, rfl, h₅, k₅⟩ | hset
          · obtain rfl := call_ok h₅
            rcases k₅.bindE_error with ⟨_, t₆, u₆, rfl, _, k₆⟩ | hstore
            · obtain ⟨_, k₆ | k₆⟩ := Runs.ret_inv k₆ <;> cases k₆
            · obtain ⟨rfl, e', rfl, _⟩ := ofExcept_fault hstore
              exact .store answer _ e'
          · exact absurd hset call_not_error
        · rcases hlatest.bindE_error with ⟨resp, t₃, u₃, rfl, _, k₃⟩ | hfetch
          · obtain ⟨_, k₃ | k₃⟩ := Runs.ret_inv k₃ <;> cases k₃
          · obtain ⟨ans, rfl, _, hno⟩ := getChecked_fault hfetch
            exact .latest ans hno
    · obtain ⟨rfl, e', rfl, _⟩ := ofExcept_fault hread
      exact .provider e'
  · exact absurd hcall call_not_error

theorem drain_tells (h : Runs (drainVolumeEvents K volumeId fuel cursor).run t
    (o : Outcome (Except Fault DrainResult))) : removals t = [] :=
  removals_eq_nil (h.only (within_drain (A := fun c => isRemoval c = false) (Q := fun _ => True)
    (fun _ => trivial) (fun _ => rfl) fun ev hev => by
      cases hev <;> rfl).1)

theorem due_tells (retry : Nat) : removals (due retry) = [] := rfl

/-- on its way to the head of its loop a task tells of no removal -/
theorem AtLoop.tells (h : AtLoop K volumeId tr cursor retry) : removals tr = [] := by
  induction h with
  | start hresolve =>
    exact removals_eq_nil (hresolve.only (within_resolveStartCursor
      (A := fun c => isRemoval c = false) (Q := fun _ => True) (fun _ => trivial) rfl rfl
      fun _ => rfl).1)
  | persisted hat hdrain ih =>
    rw [removals_append, removals_append, removals_append, ih, due_tells, drain_tells hdrain]
    rfl
  | failed hat hdrain he ih =>
    rw [removals_append, removals_append, ih, due_tells, drain_tells hdrain]
    rfl

/-- a start that failed has resolved no cursor -/
theorem StartFailed.not_started {c : String} (h : StartFailed K volumeId tr) :
    ¬ Started K volumeId tr c := by
  rintro ⟨t, ⟨u, rfl⟩, hrun⟩
  rcases resolve_ok hrun with rfl | ⟨resp, rfl⟩
  · generalize htr : [_] ++ u = tr at h
    cases h <;> cases htr
  · generalize htr : [_, _, _] ++ u = tr at h
    cases h <;> cases htr

/-- the event shows the token cancelled -/
def seesCancelled : Event host → Bool
  | ⟨.isCancelled _, a⟩ => a
  | ⟨.sleepOrCancelled _, a⟩ => a
  | _ => false

theorem SawCancelled.sees (h : SawCancelled retry t) : ∃ e ∈ t, seesCancelled e = true := by
  cases h with
  | asleep => exact ⟨_, List.mem_cons_self, rfl⟩
  | awake => exact ⟨_, List.mem_cons_of_mem _ List.mem_cons_self, rfl⟩

/-- a task that is over has not panicked, and has come to its end in one of the three ways; if it had
resolved its start cursor, it has seen its token cancelled or has told of exactly one removal -/
theorem feed_ends {r : Except Fault Unit}
    (h : Runs (spawnVolumeEventLoop K volumeId fuel).run tr (.done r)) :
    r = .ok () ∧ Ended K volumeId tr ∧ ∀ c, Started K volumeId tr c →
      (∃ e ∈ tr, seesCancelled e = true) ∨ (removals tr).length = 1 := by
  rcases task_cases h with ⟨o₁, hresolve, _, ho⟩ | ⟨tr', cursor, retry, t, rfl, hat, hlast⟩
  · rcases ho with ho | ho | ⟨e, rfl, ho⟩
    · cases ho
    · cases ho
    · cases ho
      have hfailed := resolve_fails hresolve
      exact ⟨rfl, .unresolved hfailed, fun c hc => absurd hc hfailed.not_started⟩
  · generalize hover : Outcome.done r = o at hlast
    cases hlast with
    | spent => cases hover
    | waiting => cases hover
    | draining _ _ ho =>
      subst hover
      rcases ho with ho | ho <;> cases ho
    | drained => cases hover
    | @cancelled t o ht ho =>
      subst hover
      obtain ⟨e, he, hsees⟩ := ht.sees
      refine ⟨?_, .cancelled ht ?_, fun c _ => .inl ⟨e, List.mem_append_right _ he, hsees⟩⟩
      · rcases ho with ho | ho
        · cases ho
        · cases ho
          rfl
      · rw [removals_append, hat.tells]
        cases ht <;> rfl
    | @removed fuel u msg o hdrain ho =>
      subst hover
      have hone : removals (tr' ++ (due retry ++ u ++
          [⟨.onEvent (.treeRemoval (volumeRoot volumeId)), ()⟩])) =
            [⟨.onEvent (.treeRemoval (volumeRoot volumeId)), ()⟩] := by
        rw [removals_append, removals_append, removals_append, hat.tells, due_tells,
          drain_tells hdrain]
        rfl
      refine ⟨?_, ?_, fun c _ => .inr (by rw [hone]; rfl)⟩
      · rcases ho with ho | ho
        · cases ho
        · cases ho
          rfl
      · obtain ⟨pre, c, ans, rfl, hgone⟩ := (drain_fails hdrain).last
        have hquiet := drain_tells hdrain
        rw [removals_append] at hquiet
        have hbefore : removals (tr' ++ (due retry ++ pre)) = [] := by
          rw [removals_append, removals_append, hat.tells, due_tells,
            (List.append_eq_nil_iff.mp hquiet).1]
          rfl
        have hend : Ended K volumeId (tr' ++ (due retry ++ pre) ++
            [⟨.requestJson (eventsGet volumeId c), ans⟩,
              ⟨.onEvent (.treeRemoval (volumeRoot volumeId)), ()⟩]) :=
          .removed (hgone.mpr ⟨msg, rfl⟩) hbefore
        simpa only [List.append_assoc, List.singleton_append, List.cons_append, List.nil_append]
          using hend

end

/-! ## a start that fails -/

/-- the task of a provider that cannot be read is over: no removal was told of, and the token was not
looked at -/
theorem failedStart_ends :
    ∃ tr, Runs (spawnVolumeEventLoop feedCrates "v" 1).run tr (.done (.ok ())) ∧
      removals tr = [] ∧ ∀ e ∈ tr, seesCancelled e = false := by
  refine ⟨[⟨.providerGet, .error (.cache "locked")⟩], .call (.ret _), rfl, ?_⟩
  intro e he
  rw [List.mem_singleton.mp he]
  rfl

/-- a volume that is gone at the first poll -/
def goneLife : Trace host :=
  firstLife [⟨.requestJson (eventsGet "v" "0"), .error (.notFound "gone")⟩,
    ⟨.onEvent (.treeRemoval (volumeRoot "v")), ()⟩]

theorem goneLife_ends : Ended feedCrates "v" goneLife := by
  have hloop : Runs (eventLoop feedCrates "v" 2 "0" 0).run
      (due 0 ++ [⟨.requestJson (eventsGet "v" "0"), .error (.notFound "gone")⟩,
        ⟨.onEvent (.treeRemoval (volumeRoot "v")), ()⟩]) (.done (.ok ())) :=
    Runs.bindE (pollDue_due 0) (Runs.bindE (attempt_of_error drain_error) (.call (.ret _)))
  have hrun : Runs (spawnVolumeEventLoop feedCrates "v" 2).run goneLife (.done (.ok ())) :=
    spawn_started resolve_stored hloop
  exact (feed_ends hrun).2.1

end ProtonDrive
