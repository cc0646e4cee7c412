import ProtonDrive.Session.Cell
import ProtonDrive.Session.Rotation

/-!
# The timer of the proactive refresh

Task 0 is the loop, the other tasks are reactive refreshes.

* `TimedStep`            the state of the session, its lock and the clock;
* `LoopTurn`             where the loop is between reading the expiry and its request (`loop_path`: every run
                         of the loop makes these turns);
* `pending`              the state from which the loop has set its timer, until it sends its request;
* `timer_fires_near_expiry`
                         while no reactive refresh replaces the state of a pending timer, every refresh of the
                         loop comes near the expiry;
* `reactiveRefresh_early` otherwise the loop may rotate a token that was just issued.
-/

set_option linter.unusedVariables false

namespace ProtonDrive
open Encoding Effects Api Paths

/-! ## time -/

structure TimedCell where
  cell : Cell Nat
  clock : Nat

/-- the instant that an event shows: the clock cannot be before it -/
def shown : Event sessionHost → Nat
  | ⟨.now, instant⟩ => instant
  | ⟨.sleepUntil instant, _⟩ => instant
  | _ => 0

/-- time passes; `now` tells it, and a sleeper is woken when it is due -/
structure TimedStep (w : TimedCell) (x : Nat × Event sessionHost) (w' : TimedCell) : Prop where
  locks : Locks w.cell x w'.cell
  passes : w.clock ≤ w'.clock
  shows : shown x.2 ≤ w'.clock
  tells : ∀ instant : Nat, x.2 = ⟨.now, instant⟩ → w'.clock = instant

/-! ## the turns of the loop -/

/-- `napping` has the instant the loop sleeps until; `resting` is anywhere after the request -/
inductive LoopPhase where
  | resting
  | sampled (seen : SessionState)
  | timed (seen : SessionState) (now : Nat)
  | napping (seen : SessionState) (wake : Nat)
  | woken (seen : SessionState)
  | holding (seen st : SessionState)

/-- the loop does so only on its way to a refresh -/
def readsOrSends : SessionCall → Bool
  | .readState => true
  | .requestJson _ => true
  | _ => false

inductive LoopTurn : LoopPhase → Event sessionHost → LoopPhase → Prop
  | samples (seen) : LoopTurn .resting ⟨.readState, seen⟩ (.sampled seen)
  | times (seen) (now : Nat) : LoopTurn (.sampled seen) ⟨.now, now⟩ (.timed seen now)
  | naps (seen now) (now' : Nat) : LoopTurn (.timed seen now) ⟨.now, now'⟩
      (.napping seen (now' + sleepDuration seen.expiresAt now))
  | wakes (seen instant) : LoopTurn (.napping seen instant) ⟨.sleepUntil instant, ()⟩ (.woken seen)
  | acquires (seen) (st : SessionState) : LoopTurn (.woken seen) ⟨.acquire, st⟩ (.holding seen st)
  | sends (seen st a) : LoopTurn (.holding seen st) ⟨.requestJson (refreshRequest st), a⟩ .resting
  | rests {e} (h : readsOrSends e.call = false) : LoopTurn .resting e .resting

/-- every run of the program makes the turns of a loop that is in this phase -/
def LoopsFrom (phase : LoopPhase) (p : Session Unit) : Prop :=
  ∀ tr o, Runs p.run tr o → ∃ q, Path LoopTurn phase tr q

/-- a refresh rests after its request -/
def LoopPhase.ofRefresh (seen : SessionState) : RefreshPhase → LoopPhase
  | .holding st => .holding seen st
  | _ => .resting

section
variable {K : Crates}

theorem refreshTurn_loops (seen : SessionState) (p : RefreshPhase) (e : Event sessionHost)
    (q : RefreshPhase) (h : RefreshTurn K p e q) :
    LoopTurn (.ofRefresh seen p) e (.ofRefresh seen q) := by
  cases h with
  | unanswered => exact .sends ..
  | rejects => exact .sends ..
  | unread => exact .sends ..
  | answers => exact .sends ..
  | _ => exact .rests rfl

theorem follows_rests {c : SessionCall} {f : c.Ans → Session Unit} (hc : readsOrSends c = false)
    (hf : ∀ a, Follows LoopTurn .resting (f a) fun _ _ => True) :
    Follows LoopTurn .resting (ask c >>= f) fun _ _ => True :=
  follows_call (fun _ => .rests hc) hf

theorem follows_sleep {nanos : Nat} {p : Session Unit}
    (hp : Follows LoopTurn .resting p fun _ _ => True) :
    Follows LoopTurn .resting (sleep nanos >>= fun _ => p) fun _ _ => True := by
  show Follows LoopTurn .resting (ask .now >>= fun now : Nat =>
    ask (.sleepUntil (now + nanos)) >>= fun _ => p) _
  exact follows_rests rfl fun _ => follows_rests rfl fun _ => hp

theorem loop_follows (fuel : Nat) :
    Follows LoopTurn .resting (proactiveRefreshLoop K fuel) fun _ _ => True := by
  induction fuel with
  | zero => exact follows_cut
  | succ fuel ih =>
    refine follows_call .samples fun seen => follows_call (.times seen) fun now => ?_
    change Follows LoopTurn (.timed seen now) (ask .now >>= fun now' : Nat =>
      ask (.sleepUntil (now' + sleepDuration seen.expiresAt now)) >>= fun _ => _) _
    refine follows_call (.naps seen now) fun now' => follows_call (fun _ => .wakes seen _) fun _ =>
      follows_call (.acquires seen) fun st => ?_
    refine @follows_locked K st LoopPhase Unit LoopTurn (.ofRefresh seen) .resting .resting .resting _ _
      (refreshTurn_loops seen) (fun _ => .rests rfl) (.rests rfl) (fun _ => .rests rfl) (fun _ => ih) ?_
    intro e
    cases e with
    | sessionExpired => exact follows_pure trivial
    | _ => exact follows_sleep ih

theorem loop_path (fuel : Nat) : LoopsFrom .resting (proactiveRefreshLoop K fuel) := by
  intro tr o h
  obtain ⟨q, hpath, _⟩ := loop_follows fuel tr o h
  exact ⟨q, hpath⟩

end

/-! ## the loop among reactive refreshes -/

/-- an interleaving of the loop with any number of reactive refreshes -/
structure TimerRun (K : Crates) (w₀ : TimedCell) (H : List (Nat × Event sessionHost)) (w : TimedCell) :
    Prop where
  path : Path TimedStep w₀ H w
  loop : ∃ fuel o, Runs (proactiveRefreshLoop K fuel).run (proj 0 H) o
  refreshes : ∀ i, i ≠ 0 → ∃ o, Runs (forceRefresh K).run (proj i H) o

def pendingAfter (seen : Option SessionState) : Nat × Event sessionHost → Option SessionState
  | (0, ⟨.readState, st⟩) => some st
  | (0, ⟨.requestJson _, _⟩) => none
  | _ => seen

/-- the state from which the loop has set its timer, if it has not sent its request yet -/
def pending (H : List (Nat × Event sessionHost)) : Option SessionState := H.foldl pendingAfter none

/-- no reactive refresh replaces the state of a pending timer -/
def Undisturbed (H : List (Nat × Event sessionHost)) : Prop :=
  ∀ pre i st post, H = pre ++ (i, ⟨.replace st, ()⟩) :: post → i ≠ 0 → pending pre = none

/-- the token lives for at most a minute, and the second that the loop sleeps at least -/
def NearExpiry (w : TimedCell) : Prop := w.cell.st.expiresAt ≤ w.clock + (60 + 1) * NANOS_PER_SEC

section
variable {K : Crates} {w₀ w w' : TimedCell} {H pre post : List (Nat × Event sessionHost)} {i : Nat}
  {e : Event sessionHost} {seen : SessionState}

theorem pending_concat {x : Nat × Event sessionHost} :
    pending (pre ++ [x]) = pendingAfter (pending pre) x := by
  unfold pending
  rw [List.foldl_append]
  rfl

theorem pending_other (h : i ≠ 0) : pending (pre ++ [(i, e)]) = pending pre := by
  rw [pending_concat]
  cases i with
  | zero => exact absurd rfl h
  | succ i => rfl

theorem pending_rests (h : readsOrSends e.call = false) : pending (pre ++ [(i, e)]) = pending pre := by
  rw [pending_concat]
  obtain ⟨c, a⟩ := e
  cases i with
  | succ i => rfl
  | zero =>
    cases c with
    | readState => cases h
    | requestJson => cases h
    | _ => rfl

/-- the timer was set from the state the session is in -/
structure SetFrom (pre : List (Nat × Event sessionHost)) (w : TimedCell) (seen : SessionState) :
    Prop where
  timer : pending pre = some seen
  current : w.cell.st = seen

/-- what is known where the loop is -/
def Sound (pre : List (Nat × Event sessionHost)) (w : TimedCell) : LoopPhase → Prop
  | .resting => True
  | .sampled seen => SetFrom pre w seen
  | .timed seen now => SetFrom pre w seen ∧ now ≤ w.clock
  | .napping seen wake => SetFrom pre w seen ∧ seen.expiresAt ≤ wake + 60 * NANOS_PER_SEC
  | .woken seen => SetFrom pre w seen ∧ seen.expiresAt ≤ w.clock + 60 * NANOS_PER_SEC
  | .holding seen _ => SetFrom pre w seen ∧ seen.expiresAt ≤ w.clock + 60 * NANOS_PER_SEC

/-- the loop sleeps long enough -/
theorem sleepDuration_long (expiresAt now : Nat) :
    expiresAt ≤ now + sleepDuration expiresAt now + 60 * NANOS_PER_SEC := by
  unfold sleepDuration
  omega

theorem SetFrom.step {x : Nat × Event sessionHost} (h : SetFrom pre w seen) (hstep : TimedStep w x w')
    (hpending : pending (pre ++ [x]) = pending pre) (hkept : ∀ st, x.2 ≠ ⟨.replace st, ()⟩) :
    SetFrom (pre ++ [x]) w' seen where
  timer := hpending.trans h.timer
  current := by
    obtain ⟨i, e⟩ := x
    rcases hstep.locks.st_eq with hst | ⟨st, he⟩
    · exact hst.trans h.current
    · exact absurd he (hkept st)

/-- a step of another task, which leaves a state alone whose timer is pending -/
theorem Sound.other {q : LoopPhase} (h : Sound pre w q) (hstep : TimedStep w (i, e) w') (hi : i ≠ 0)
    (hkept : ∀ st, e = ⟨.replace st, ()⟩ → pending pre = none) : Sound (pre ++ [(i, e)]) w' q := by
  have hset : ∀ seen, SetFrom pre w seen → SetFrom (pre ++ [(i, e)]) w' seen := by
    intro seen hset
    refine hset.step hstep (pending_other hi) fun st he => ?_
    have hnone := hkept st he
    rw [hset.timer] at hnone
    cases hnone
  have hpasses := hstep.passes
  cases q with
  | resting => trivial
  | sampled seen => exact hset seen h
  | timed seen now => exact ⟨hset seen h.1, h.2.trans hpasses⟩
  | napping seen wake => exact ⟨hset seen h.1, h.2⟩
  | woken seen => exact ⟨hset seen h.1, h.2.trans (Nat.add_le_add_right hpasses _)⟩
  | holding seen st => exact ⟨hset seen h.1, h.2.trans (Nat.add_le_add_right hpasses _)⟩

/-- a step of the loop -/
theorem Sound.turn {q q' : LoopPhase} (h : Sound pre w q) (hturn : LoopTurn q e q')
    (hstep : TimedStep w (0, e) w') : Sound (pre ++ [(0, e)]) w' q' := by
  have hpasses := hstep.passes
  cases hturn with
  | samples seen =>
    obtain ⟨hcell, hst, _⟩ := hstep.locks.readState_inv
    refine ⟨by rw [pending_concat]; rfl, ?_⟩
    rw [hcell]
    exact hst
  | times seen now =>
    exact ⟨h.step hstep (pending_rests rfl) nofun, (hstep.tells now rfl).ge⟩
  | naps seen now now' =>
    refine ⟨h.1.step hstep (pending_rests rfl) nofun, ?_⟩
    have hlong := sleepDuration_long seen.expiresAt now
    have hlater : now ≤ now' := h.2.trans (hpasses.trans (hstep.tells now' rfl).le)
    omega
  | wakes seen instant =>
    have hdue : instant ≤ w'.clock := hstep.shows
    exact ⟨h.1.step hstep (pending_rests rfl) nofun, h.2.trans (Nat.add_le_add_right hdue _)⟩
  | acquires seen st =>
    exact ⟨h.1.step hstep (pending_rests rfl) nofun, h.2.trans (Nat.add_le_add_right hpasses _)⟩
  | sends => trivial
  | rests => trivial

/-- the turns of the tasks: nothing is asked of a reactive refresh -/
def TaskTurn (i : Nat) (p : LoopPhase) (e : Event sessionHost) (q : LoopPhase) : Prop :=
  if i = 0 then LoopTurn p e q else q = .resting

theorem taskTurn_path (l : List (Event sessionHost)) (hi : i ≠ 0) :
    Path (TaskTurn i) .resting l .resting := by
  induction l with
  | nil => exact .nil _
  | cons e l ih =>
    refine .cons ?_ ih
    unfold TaskTurn
    rw [if_neg hi]

theorem TimerRun.local (h : TimerRun K w₀ H w) (i : Nat) :
    ∃ q, Local TaskTurn (fun _ => .resting) H i q := by
  by_cases hi : i = 0
  · subst hi
    obtain ⟨fuel, o, hrun⟩ := h.loop
    obtain ⟨q, hpath⟩ := loop_path fuel _ _ hrun
    exact ⟨q, hpath⟩
  · exact ⟨_, taskTurn_path _ hi⟩

/-- whenever the loop asks for a refresh, the token it rotates is the one its timer was set from, and is
near its expiry -/
theorem timer_fires_near_expiry {req : JsonRequest} {a : (SessionCall.requestJson req).Ans}
    (h : TimerRun K w₀ H w) (hund : Undisturbed H)
    (hH : H = pre ++ (0, ⟨.requestJson req, a⟩) :: post) (hpre : Path TimedStep w₀ pre w') :
    pending pre = some w'.cell.st ∧ NearExpiry w' := by
  have hholds : Holds TaskTurn (fun _ => .resting) (fun _ _ => True)
      (fun pre w i q => i = 0 → Sound pre w q) pre w' := by
    refine interleaved h.local trivial (fun _ _ => trivial) ?_ hH hpre
    intro pre i e w w' q q' hat hheld
    obtain ⟨post, hsplit⟩ := hat.split
    refine ⟨trivial, ?_, ?_⟩
    · rintro rfl
      exact (hheld.2 0 q hat.here rfl).turn hat.turn hat.shared
    · rintro j p hij hp rfl
      refine (hheld.2 0 p hp rfl).other hat.shared hij ?_
      rintro st rfl
      exact hund pre i st post hsplit hij
  obtain ⟨qEnd, hEnd⟩ := h.local 0
  rw [hH] at hEnd
  obtain ⟨q, q', hq, hturn⟩ := hEnd.moved
  have hsound := hholds.2 0 q hq rfl
  cases (show LoopTurn q _ q' from hturn) with
  | sends seen st =>
    obtain ⟨hset, hnear⟩ := hsound
    refine ⟨by rw [hset.timer, hset.current], ?_⟩
    unfold NearExpiry
    rw [hset.current]
    omega
  | rests h => cases h

end

/-! ## a reactive refresh while the loop sleeps -/

def seconds (n : Nat) : Nat := n * NANOS_PER_SEC

/-- the loop sets its timer for half an hour less a minute -/
def settingTrace : Trace sessionHost :=
  [⟨.readState, smallState⟩, ⟨.now, (0 : Nat)⟩, ⟨.now, (0 : Nat)⟩]

/-- it is woken, and finds this state -/
def wokenTrace (st : SessionState) : Trace sessionHost :=
  [⟨.sleepUntil (seconds 1740), ()⟩, ⟨.acquire, st⟩]

/-- it asks for a refresh -/
def askedEvent (st : SessionState) : Event sessionHost :=
  ⟨.requestJson (refreshRequest st), .error (.network "connection refused")⟩

theorem loopTrace_runs (st : SessionState) :
    Runs (proactiveRefreshLoop rotatedCrates 1).run (settingTrace ++ wokenTrace st ++ [askedEvent st])
      .running := by
  have hwake : 0 + sleepDuration smallState.expiresAt 0 = seconds 1740 := by decide
  refine .call (.call (.call (?_ : Runs (ask (.sleepUntil (0 + sleepDuration smallState.expiresAt 0)) >>=
    fun _ => _ : Session Unit).run _ _)))
  rw [hwake]
  exact .call (.call (caught_running (.call (.stop _))))

/-- the state after a refresh at `now` -/
def freshState (now : Nat) : SessionState := smallState.rotated rotatedTokens (now + TOKEN_LIFE)

/-- a reactive refresh at `now` -/
def reactiveTrace (now : Nat) : Trace sessionHost :=
  forcedTrace smallState rotatedResponse rotatedTokens now

theorem TimedStep.of {c c' : Cell Nat} {t t' i : Nat} {e : Event sessionHost} (hlocks : Locks c (i, e) c')
    (hpasses : t ≤ t') (hshown : shown e ≤ t') (htells : ∀ instant : Nat, e = ⟨.now, instant⟩ → t' = instant) :
    TimedStep ⟨c, t⟩ (i, e) ⟨c', t'⟩ := ⟨hlocks, hpasses, hshown, htells⟩

theorem TimedStep.now (c : Cell Nat) {t : Nat} (i : Nat) {instant : Nat} (h : t ≤ instant) :
    TimedStep ⟨c, t⟩ (i, ⟨.now, instant⟩) ⟨c, instant⟩ :=
  .of (.other c i rfl) h le_rfl fun n hn => by cases hn; rfl

/-- a step that takes no time -/
theorem TimedStep.still {c c' : Cell Nat} {t i : Nat} {e : Event sessionHost} (h : Locks c (i, e) c')
    (hshown : shown e = 0) (hnow : ∀ instant : Nat, e ≠ ⟨.now, instant⟩) :
    TimedStep ⟨c, t⟩ (i, e) ⟨c', t⟩ :=
  .of h le_rfl (by omega) fun n hn => absurd hn (hnow n)

def freeCell (st : SessionState) : Cell Nat := { st, holder := none }

theorem settingTrace_path : Path TimedStep ⟨freeCell smallState, 0⟩ (settingTrace.map fun e => (0, e))
    ⟨freeCell smallState, 0⟩ :=
  .cons (.still (.reads 0 rfl) rfl nofun) (.cons (.now _ 0 le_rfl) (.one (.now _ 0 le_rfl)))

theorem reactiveTrace_path (now : Nat) :
    Path TimedStep ⟨freeCell smallState, 0⟩ ((reactiveTrace now).map fun e => (1, e))
      ⟨freeCell (freshState now), now⟩ :=
  .cons (.still (.acquires 1 rfl) rfl nofun) (.cons (.still (.other _ 1 rfl) rfl nofun)
    (.cons (.now _ 1 (Nat.zero_le _)) (.cons (.still (.other _ 1 rfl) rfl nofun)
      (.cons (.still (.other _ 1 rfl) rfl nofun) (.cons (.still (.other _ 1 rfl) rfl nofun)
        (.cons (.now _ 1 le_rfl) (.cons (.still (.other _ 1 rfl) rfl nofun)
          (.cons (.still (.replaces _ rfl) rfl nofun) (.one (.still (.releases rfl) rfl nofun))))))))))

/-- the timer fires when it is due -/
theorem wokenTrace_path (st : SessionState) {t : Nat} (ht : t ≤ seconds 1740) :
    Path TimedStep ⟨freeCell st, t⟩ ((wokenTrace st).map fun e => (0, e))
      ⟨{ st, holder := some 0 }, seconds 1740⟩ :=
  .cons (.of (.other _ 0 rfl) ht le_rfl nofun) (.one (.still (.acquires 0 rfl) rfl nofun))

theorem askedEvent_step (st : SessionState) (t : Nat) :
    TimedStep ⟨{ st, holder := some 0 }, t⟩ (0, askedEvent st) ⟨{ st, holder := some 0 }, t⟩ :=
  .still (.other _ 0 rfl) rfl nofun

/-- the loop has set its timer, a reactive refresh comes after a thousand seconds, and the timer fires -/
def earlyHistory : List (Nat × Event sessionHost) :=
  settingTrace.map (fun e => (0, e)) ++ (reactiveTrace (seconds 1000)).map (fun e => (1, e)) ++
    (wokenTrace (freshState (seconds 1000))).map fun e => (0, e)

theorem earlyHistory_path : Path TimedStep ⟨freeCell smallState, 0⟩ earlyHistory
    ⟨{ st := freshState (seconds 1000), holder := some 0 }, seconds 1740⟩ :=
  (settingTrace_path.append (reactiveTrace_path _)).append (wokenTrace_path _ (by decide))

/-- the loop rotates a token that has more than a quarter of an hour left, by the timer of the token before -/
theorem reactiveRefresh_early : ∃ w₀ H w pre req a post w', TimerRun rotatedCrates w₀ H w ∧
    H = pre ++ (0, ⟨.requestJson req, a⟩) :: post ∧ Path TimedStep w₀ pre w' ∧
    ¬ NearExpiry w' ∧ pending pre ≠ some w'.cell.st := by
  refine ⟨_, earlyHistory ++ [(0, askedEvent (freshState (seconds 1000)))], _, earlyHistory, _, _, [], _,
    ⟨earlyHistory_path.concat (askedEvent_step _ _), ⟨1, _, loopTrace_runs (freshState (seconds 1000))⟩,
      fun i hi => ?_⟩, rfl, earlyHistory_path, by unfold NearExpiry; decide, by decide⟩
  by_cases hone : i = 1
  · subst hone
    exact ⟨_, forcedTrace_runs smallState rotated_rotates (seconds 1000)⟩
  · have hnothing : proj i (earlyHistory ++ [(0, askedEvent (freshState (seconds 1000)))]) = [] := by
      unfold earlyHistory
      rw [proj_append, proj_append, proj_append, proj_map_other (Ne.symm hi), proj_map_other (Ne.symm hone),
        proj_map_other (Ne.symm hi), proj_other (Ne.symm hi)]
      rfl
    rw [hnothing]
    exact ⟨_, .stop _⟩

/-- the loop alone -/
def quietHistory : List (Nat × Event sessionHost) :=
  (settingTrace ++ wokenTrace smallState).map fun e => (0, e)

theorem quietHistory_path : Path TimedStep ⟨freeCell smallState, 0⟩ quietHistory
    ⟨{ st := smallState, holder := some 0 }, seconds 1740⟩ :=
  settingTrace_path.append (wokenTrace_path _ (Nat.zero_le _))

/-- it asks for a refresh a minute before the expiry -/
theorem quietTimer_near : NearExpiry ⟨{ st := smallState, holder := some 0 }, seconds 1740⟩ := by
  have hrun : TimerRun rotatedCrates ⟨freeCell smallState, 0⟩ (quietHistory ++ [(0, askedEvent smallState)])
      ⟨{ st := smallState, holder := some 0 }, seconds 1740⟩ := by
    refine ⟨quietHistory_path.concat (askedEvent_step _ _), ⟨1, _, loopTrace_runs smallState⟩,
      fun i hi => ?_⟩
    have hnothing : proj i (quietHistory ++ [(0, askedEvent smallState)]) = [] := by
      unfold quietHistory
      rw [proj_append, proj_map_other (Ne.symm hi), proj_other (Ne.symm hi)]
      rfl
    rw [hnothing]
    exact ⟨_, .stop _⟩
  have hund : Undisturbed (quietHistory ++ [(0, askedEvent smallState)]) := by
    intro pre i st post hsplit hi
    have hmem : (i, (⟨.replace st, ()⟩ : Event sessionHost)) ∈
        (settingTrace ++ wokenTrace smallState ++ [askedEvent smallState]).map fun e => (0, e) := by
      have hall : (settingTrace ++ wokenTrace smallState ++ [askedEvent smallState]).map (fun e => (0, e)) =
          pre ++ (i, ⟨.replace st, ()⟩) :: post := hsplit
      rw [hall]
      exact List.mem_append_right _ List.mem_cons_self
    obtain ⟨e, _, he⟩ := List.mem_map.mp hmem
    exact absurd (congrArg Prod.fst he).symm hi
  exact (timer_fires_near_expiry hrun hund rfl quietHistory_path).2

end ProtonDrive
