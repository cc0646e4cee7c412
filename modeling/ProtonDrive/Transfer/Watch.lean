import ProtonDrive.Download.Complete
import ProtonDrive.Transfer.Disk
import ProtonDrive.Transfer.Pool

/-!
# The two reads of `poll`

`poll` reads the channel of the progress first and the channel of the outcome after it, and the task
can send between the two.

* `Transfer.readProgress`, `Transfer.readOutcome`
                          the two halves of `poll` (`Transfer.poll_split`);
* `Watched`, `Moment`     a transfer with its task, and where its `poll` stands; the sends of the task
                          and the reads of `poll` take turns in any way;
* `Overtaken`             between the two reads of a `poll` the task has sent another progress value
                          and returned `Ok`;
* `completed_shows_last`  a completed transfer shows the last progress value of its task, unless its
                          last `poll` was overtaken;
* `download_overtaken`    which can happen to a download: the transfer then shows no byte.
-/

set_option linter.unusedVariables false

namespace ProtonDrive
open Encoding Effects Paths

/-! ## the halves of `poll` -/

/-- `poll` up to the first read, with `bytes_changed` -/
def Transfer.readProgress (t : Transfer) : Transfer × Bool :=
  let bytesChanged : Bool := t.progressRx ≠ t.bytesDone
  (if bytesChanged then { t with bytesDone := t.progressRx, state := .running } else t, bytesChanged)

/-- the rest of it -/
def Transfer.readOutcome (t : Transfer) (bytesChanged : Bool) : Transfer × Bool :=
  match t.outcomeRx with
  | none => (t, bytesChanged)
  | some (.ok ()) => ({ t with state := .completed }, true)
  | some (.error msg) => ({ t with state := .failed msg }, true)

/-- a `poll` that nothing comes between -/
theorem Transfer.poll_split {t : Transfer} (h : t.state.isTerminal = false) :
    t.poll = t.readProgress.1.readOutcome t.readProgress.2 := by
  unfold Transfer.poll
  rw [h]
  rfl

section
variable {t : Transfer} {changed : Bool}

theorem Transfer.readProgress_bytesDone (t : Transfer) :
    t.readProgress.1.bytesDone = t.progressRx := by
  unfold Transfer.readProgress
  by_cases hbytes : t.progressRx = t.bytesDone
  · simp [hbytes]
  · simp [hbytes]

theorem Transfer.readProgress_channels (t : Transfer) :
    t.readProgress.1.progressRx = t.progressRx ∧ t.readProgress.1.outcomeRx = t.outcomeRx := by
  unfold Transfer.readProgress
  by_cases hbytes : t.progressRx = t.bytesDone
  · simp [hbytes]
  · simp [hbytes]

theorem Transfer.readProgress_live (h : t.state.isTerminal = false) :
    t.readProgress.1.state.isTerminal = false := by
  unfold Transfer.readProgress
  by_cases hbytes : t.progressRx = t.bytesDone
  · simp [hbytes, h]
  · simp [hbytes, TransferState.isTerminal]

theorem Transfer.readOutcome_bytes (t : Transfer) (changed : Bool) :
    (t.readOutcome changed).1.bytesDone = t.bytesDone ∧
      (t.readOutcome changed).1.progressRx = t.progressRx ∧
      (t.readOutcome changed).1.outcomeRx = t.outcomeRx := by
  unfold Transfer.readOutcome
  split
  · exact ⟨rfl, rfl, rfl⟩
  · exact ⟨rfl, rfl, rfl⟩
  · exact ⟨rfl, rfl, rfl⟩

/-- the second read completes a transfer just if it finds the outcome `Ok` -/
theorem Transfer.readOutcome_completed (h : t.state ≠ .completed) :
    (t.readOutcome changed).1.state = .completed ↔ t.outcomeRx = some (.ok ()) := by
  unfold Transfer.readOutcome
  split
  · next hnone =>
    rw [hnone]
    exact iff_of_false h nofun
  · next hok =>
    rw [hok]
    exact iff_of_true rfl rfl
  · next msg hfailed =>
    rw [hfailed]
    exact iff_of_false nofun nofun

end

/-! ## sends between the reads -/

inductive Moment where
  | progress (bytes : Nat)
  | finish (r : Except TaskFault Unit)
  | look
  | check
  | cancel

/-- the task's own moments -/
def Moment.isSend : Moment → Bool
  | .progress _ => true
  | .finish _ => true
  | _ => false

/-- `polling` is `bytes_changed` while `poll` stands between its two reads -/
structure Watched where
  entry : Entry
  polling : Option Bool

def Watched.spawned : Watched := { entry := .spawned, polling := none }

/-- `poll` holds the transfer until it returns, so it is not begun twice, and nobody cancels meanwhile -/
def Watched.act (w : Watched) : Moment → Option Watched
  | .progress bytes => (w.entry.act (.progress bytes)).map fun entry => { w with entry }
  | .finish r => (w.entry.act (.finish r)).map fun entry => { w with entry }
  | .look =>
    if w.polling.isSome then none
    else if w.entry.isTerminal then some w
    else some { entry := { w.entry with transfer := w.entry.transfer.readProgress.1 },
                polling := some w.entry.transfer.readProgress.2 }
  | .check => w.polling.map fun changed =>
    { entry := { w.entry with transfer := (w.entry.transfer.readOutcome changed).1 }, polling := none }
  | .cancel =>
    if w.polling.isSome then none
    else (w.entry.act .cancel).map fun entry => { w with entry }

def WatchStep (w : Watched) (m : Moment) (w' : Watched) : Prop := w.act m = some w'

/-- the progress value that was sent last; the channel begins with 0 -/
def lastProgress (l : List Moment) : Nat :=
  l.foldl (fun last m => match m with | .progress bytes => bytes | _ => last) 0

/-- after `pre` a `poll` has made its first read, and then the task has sent another progress value
and its outcome `Ok` -/
structure Overtakes (l pre gap : List Moment) : Prop where
  split : l = pre ++ .look :: gap
  sends : ∀ m ∈ gap, m.isSend = true
  finished : .finish (.ok ()) ∈ gap
  moved : lastProgress l ≠ lastProgress pre

/-- a `poll` was overtaken before its second read -/
def Overtaken (l : List Moment) : Prop :=
  ∃ before after pre gap, l = before ++ .check :: after ∧ Overtakes before pre gap

section
variable {l : List Moment} {m : Moment} {w w' : Watched}

theorem lastProgress_concat (l : List Moment) (m : Moment) : lastProgress (l ++ [m]) =
    match m with | .progress bytes => bytes | _ => lastProgress l := List.foldl_concat _ _ _ _

/-- with nothing between its reads it is the `poll` of the entry -/
theorem Watched.look_check (hidle : w.polling = none) (hlive : w.entry.isTerminal = false) :
    Path WatchStep w [.look, .check] { entry := w.entry.poll, polling := none } := by
  have hpoll : w.entry.transfer.poll =
      w.entry.transfer.readProgress.1.readOutcome w.entry.transfer.readProgress.2 :=
    Transfer.poll_split hlive
  refine .cons (q := { entry := { w.entry with transfer := w.entry.transfer.readProgress.1 },
                       polling := some w.entry.transfer.readProgress.2 }) ?_ (.one ?_)
  · rw [WatchStep, Watched.act, hidle, hlive]
    rfl
  · rw [WatchStep, Watched.act, Entry.poll, hpoll]
    rfl

/-! ### what a moment does -/

theorem WatchStep.progress_inv {bytes : Nat} (h : WatchStep w (.progress bytes) w') :
    w.entry.task = none ∧ w' = { w with
      entry := { w.entry with transfer := w.entry.transfer.hear (.sendProgress bytes) } } := by
  rw [WatchStep, Watched.act, Entry.act] at h
  split at h
  · next hnone =>
    cases h
    exact ⟨Option.isNone_iff_eq_none.mp hnone, rfl⟩
  · cases h

theorem WatchStep.finish_inv {r : Except TaskFault Unit} (h : WatchStep w (.finish r) w') :
    w.entry.task = none ∧ w' = { w with
      entry := { transfer := w.entry.transfer.report r, task := some r } } := by
  rw [WatchStep, Watched.act, Entry.act] at h
  split at h
  · next hnone =>
    cases h
    exact ⟨Option.isNone_iff_eq_none.mp hnone, rfl⟩
  · cases h

theorem WatchStep.look_inv (h : WatchStep w .look w') : w.polling = none ∧
    (w.entry.isTerminal = true ∧ w' = w ∨ w.entry.isTerminal = false ∧ w' =
      { entry := { w.entry with transfer := w.entry.transfer.readProgress.1 },
        polling := some w.entry.transfer.readProgress.2 }) := by
  rw [WatchStep, Watched.act] at h
  split at h
  · cases h
  · next hidle =>
    refine ⟨Option.not_isSome_iff_eq_none.mp hidle, ?_⟩
    split at h
    · next hterm =>
      cases h
      exact .inl ⟨hterm, rfl⟩
    · next hlive =>
      cases h
      exact .inr ⟨Bool.not_eq_true _ ▸ hlive, rfl⟩

theorem WatchStep.check_inv (h : WatchStep w .check w') : ∃ changed, w.polling = some changed ∧
    w' = { entry := { w.entry with transfer := (w.entry.transfer.readOutcome changed).1 },
           polling := none } := by
  obtain ⟨changed, hpolling, rfl⟩ := Option.map_eq_some_iff.mp h
  exact ⟨changed, hpolling, rfl⟩

theorem WatchStep.cancel_inv (h : WatchStep w .cancel w') : w.polling = none ∧
    w' = { w with entry := { w.entry with transfer := w.entry.transfer.cancel } } := by
  rw [WatchStep, Watched.act] at h
  split at h
  · cases h
  · next hidle =>
    cases h
    exact ⟨Option.not_isSome_iff_eq_none.mp hidle, rfl⟩

/-! ### polls that are overtaken -/

theorem overtaken_concat : Overtaken (l ++ [m]) ↔
    Overtaken l ∨ m = .check ∧ ∃ pre gap, Overtakes l pre gap := by
  constructor
  · intro ⟨before, after, pre, gap, hsplit, hover⟩
    rcases List.eq_nil_or_concat' after with rfl | ⟨after, x, rfl⟩
    · obtain ⟨rfl, hlast⟩ := List.append_inj' hsplit rfl
      cases hlast
      exact .inr ⟨rfl, pre, gap, hover⟩
    · rw [← List.cons_append, ← List.append_assoc] at hsplit
      obtain ⟨rfl, _⟩ := List.append_inj' hsplit rfl
      exact .inl ⟨before, after, pre, gap, rfl, hover⟩
  · rintro (⟨before, after, pre, gap, rfl, hover⟩ | ⟨rfl, pre, gap, hover⟩)
    · exact ⟨before, after ++ [m], pre, gap, by simp, hover⟩
    · exact ⟨l, [], pre, gap, rfl, hover⟩

/-- the last `look` of a list stands in one place -/
theorem look_unique {pre pre' gap gap' : List Moment} (hgap : ∀ m ∈ gap, m.isSend = true)
    (hgap' : ∀ m ∈ gap', m.isSend = true) (h : pre ++ .look :: gap = pre' ++ .look :: gap') :
    pre = pre' := by
  have hno : ∀ {g c d : List Moment}, (∀ m ∈ g, m.isSend = true) → g ≠ c ++ .look :: d := by
    rintro g c d hg rfl
    cases hg .look (List.mem_append_right _ List.mem_cons_self)
  rcases List.append_eq_append_iff.mp h with ⟨c, hpre, hrest⟩ | ⟨c, hpre, hrest⟩
  · cases c with
    | nil => rw [hpre, List.append_nil]
    | cons x c =>
      rw [List.cons_append] at hrest
      exact absurd (List.cons.inj hrest).2 (hno hgap)
  · cases c with
    | nil => rw [hpre, List.append_nil]
    | cons x c =>
      rw [List.cons_append] at hrest
      exact absurd (List.cons.inj hrest).2 (hno hgap')

/-! ## what is known of a watched transfer -/

/-- `l` is what has happened so far -/
structure Watched.Tracks (l : List Moment) (w : Watched) : Prop where
  heard : w.entry.transfer.progressRx = lastProgress l
  sound : w.entry.Sound
  ended : ∀ r, .finish r ∈ l → w.entry.task = some r
  /-- between the reads: what the first one has found, and what was sent since then -/
  looked : ∀ changed, w.polling = some changed → ∃ pre gap, l = pre ++ .look :: gap ∧
    (∀ m ∈ gap, m.isSend = true) ∧ w.entry.isTerminal = false ∧
    w.entry.transfer.bytesDone = lastProgress pre ∧
    (w.entry.task = some (.ok ()) → lastProgress l ≠ lastProgress pre → .finish (.ok ()) ∈ gap)
  completed : w.entry.transfer.state = .completed →
    w.polling = none ∧ w.entry.transfer.outcomeRx = some (.ok ())
  overtaken : Overtaken l ↔
    w.entry.transfer.state = .completed ∧ w.entry.transfer.bytesDone ≠ lastProgress l

theorem not_overtaken_nil : ¬ Overtaken [] := by
  intro ⟨before, after, pre, gap, hsplit, _⟩
  cases before <;> cases hsplit

theorem tracks_spawned : Watched.Tracks [] .spawned where
  heard := rfl
  sound := rfl
  ended := nofun
  looked := nofun
  completed := nofun
  overtaken := iff_of_false not_overtaken_nil nofun

/-- only the second read of a `poll` can complete the list of an overtaken one -/
theorem overtaken_concat_of_ne (h : m ≠ .check) : Overtaken (l ++ [m]) ↔ Overtaken l := by
  rw [overtaken_concat]
  exact or_iff_left fun hlast => h hlast.1

/-- a task that has not ended has completed nothing -/
theorem Watched.Tracks.not_completed (hw : w.Tracks l) (htask : w.entry.task = none) :
    w.entry.transfer.state ≠ .completed := by
  intro hcompleted
  have hsound := hw.sound
  unfold Entry.Sound at hsound
  rw [(hw.completed hcompleted).2, htask] at hsound
  cases hsound

theorem Watched.Tracks.not_completed_of_live (hlive : w.entry.isTerminal = false) :
    w.entry.transfer.state ≠ .completed := by
  intro hcompleted
  unfold Entry.isTerminal at hlive
  rw [hcompleted] at hlive
  cases hlive

theorem Watched.Tracks.progress {bytes : Nat} (hw : w.Tracks l)
    (h : WatchStep w (.progress bytes) w') : w'.Tracks (l ++ [.progress bytes]) := by
  obtain ⟨htask, rfl⟩ := h.progress_inv
  have hopen := hw.not_completed htask
  refine ⟨(lastProgress_concat l (.progress bytes)).symm, hw.sound, fun r hr => ?_,
    fun changed hpolling => ?_, fun hcompleted => absurd hcompleted hopen, ?_⟩
  · rcases List.mem_append.mp hr with hr | hr
    · exact hw.ended r hr
    · cases List.mem_singleton.mp hr
  · obtain ⟨pre, gap, rfl, hsends, hlive, hbytes, _⟩ := hw.looked changed hpolling
    refine ⟨pre, gap ++ [.progress bytes], by simp, fun m hm => ?_, hlive, hbytes, fun hok => ?_⟩
    · rcases List.mem_append.mp hm with hm | hm
      · exact hsends m hm
      · rw [List.mem_singleton.mp hm]
        rfl
    · change w.entry.task = _ at hok
      rw [htask] at hok
      cases hok
  · rw [overtaken_concat_of_ne (m := .progress bytes) nofun, hw.overtaken]
    exact iff_of_false (fun h => hopen h.1) fun h => hopen h.1

theorem Watched.Tracks.finish {r : Except TaskFault Unit} (hw : w.Tracks l)
    (h : WatchStep w (.finish r) w') : w'.Tracks (l ++ [.finish r]) := by
  obtain ⟨htask, rfl⟩ := h.finish_inv
  have hopen := hw.not_completed htask
  have hstate : (w.entry.transfer.report r).state ≠ .completed := by
    rw [Transfer.report_state]
    exact hopen
  have hsame : (w.entry.transfer.report r).progressRx = w.entry.transfer.progressRx ∧
      (w.entry.transfer.report r).bytesDone = w.entry.transfer.bytesDone := by
    match r with
    | .ok () => exact ⟨rfl, rfl⟩
    | .error (.failed _) => exact ⟨rfl, rfl⟩
    | .error (.panicked _) => exact ⟨rfl, rfl⟩
  have hlast : lastProgress (l ++ [.finish r]) = lastProgress l := lastProgress_concat l _
  refine ⟨?_, ?_, fun r' hr' => ?_, fun changed hpolling => ?_,
    fun hcompleted => absurd hcompleted hstate, ?_⟩
  · rw [hlast, ← hw.heard]
    exact hsame.1
  · have hsound := hw.sound
    unfold Entry.Sound at hsound ⊢
    rw [htask] at hsound
    show (w.entry.transfer.report r).outcomeRx = outcomeOf r
    rw [Transfer.report_outcomeRx, hsound]
    exact Option.or_none
  · rcases List.mem_append.mp hr' with hr' | hr'
    · have hended := hw.ended r' hr'
      rw [htask] at hended
      cases hended
    · cases List.mem_singleton.mp hr'
      rfl
  · obtain ⟨pre, gap, rfl, hsends, hlive, hbytes, _⟩ := hw.looked changed hpolling
    refine ⟨pre, gap ++ [.finish r], by simp, fun m hm => ?_, ?_, hsame.2.trans hbytes, ?_⟩
    · rcases List.mem_append.mp hm with hm | hm
      · exact hsends m hm
      · rw [List.mem_singleton.mp hm]
        rfl
    · show (w.entry.transfer.report r).state.isTerminal = false
      rw [Transfer.report_state]
      exact hlive
    · intro hok _
      cases hok
      exact List.mem_concat_self
  · rw [overtaken_concat_of_ne (m := .finish r) nofun, hw.overtaken]
    exact iff_of_false (fun h => hopen h.1) fun h => hstate h.1

theorem Watched.Tracks.look (hw : w.Tracks l) (h : WatchStep w .look w') :
    w'.Tracks (l ++ [.look]) := by
  have hlast : lastProgress (l ++ [.look]) = lastProgress l := lastProgress_concat l .look
  have hended : ∀ r, .finish r ∈ l ++ [.look] → w.entry.task = some r := by
    intro r hr
    rcases List.mem_append.mp hr with hr | hr
    · exact hw.ended r hr
    · cases List.mem_singleton.mp hr
  obtain ⟨hidle, ⟨hterm, rfl⟩ | ⟨hlive, rfl⟩⟩ := h.look_inv
  · refine ⟨hw.heard.trans hlast.symm, hw.sound, hended, fun changed hpolling => ?_, hw.completed, ?_⟩
    · rw [hidle] at hpolling
      cases hpolling
    · rw [overtaken_concat_of_ne (m := .look) nofun, hlast]
      exact hw.overtaken
  · obtain ⟨hheard, houtcome⟩ := w.entry.transfer.readProgress_channels
    have hread := w.entry.transfer.readProgress_bytesDone
    have hnow : w.entry.transfer.readProgress.1.state.isTerminal = false :=
      Transfer.readProgress_live hlive
    have hopen : w.entry.transfer.readProgress.1.state ≠ .completed :=
      Watched.Tracks.not_completed_of_live
        (w := { entry := { w.entry with transfer := w.entry.transfer.readProgress.1 },
                polling := none }) hnow
    refine ⟨?_, houtcome.trans hw.sound, hended, fun changed _ => ?_,
      fun hcompleted => absurd hcompleted hopen, ?_⟩
    · rw [hlast, ← hw.heard]
      exact hheard
    · refine ⟨l, [], rfl, nofun, hnow, hread.trans hw.heard, fun _ hmoved => ?_⟩
      exact absurd hlast hmoved
    · rw [overtaken_concat_of_ne (m := .look) nofun, hw.overtaken]
      exact iff_of_false (fun h => Watched.Tracks.not_completed_of_live hlive h.1) fun h => hopen h.1

theorem Watched.Tracks.cancel (hw : w.Tracks l) (h : WatchStep w .cancel w') :
    w'.Tracks (l ++ [.cancel]) := by
  have hlast : lastProgress (l ++ [.cancel]) = lastProgress l := lastProgress_concat l .cancel
  obtain ⟨hidle, rfl⟩ := h.cancel_inv
  have hsame : w.entry.transfer.cancel.progressRx = w.entry.transfer.progressRx ∧
      w.entry.transfer.cancel.bytesDone = w.entry.transfer.bytesDone := by
    unfold Transfer.cancel
    split <;> exact ⟨rfl, rfl⟩
  have hstate : w.entry.transfer.cancel.state = .completed ↔ w.entry.transfer.state = .completed := by
    refine ⟨w.entry.transfer.cancel_cases.2, fun hcompleted => ?_⟩
    rw [Transfer.cancel_terminal (by rw [hcompleted]; rfl)]
    exact hcompleted
  refine ⟨?_, ?_, fun r hr => ?_, fun changed hpolling => ?_, fun hcompleted => ?_, ?_⟩
  · rw [hlast, ← hw.heard]
    exact hsame.1
  · exact w.entry.transfer.cancel_cases.1.trans hw.sound
  · rcases List.mem_append.mp hr with hr | hr
    · exact hw.ended r hr
    · cases List.mem_singleton.mp hr
  · change w.polling = _ at hpolling
    rw [hidle] at hpolling
    cases hpolling
  · refine ⟨hidle, ?_⟩
    rw [w.entry.transfer.cancel_cases.1]
    exact (hw.completed (hstate.mp hcompleted)).2
  · rw [overtaken_concat_of_ne (m := .cancel) nofun, hw.overtaken, hlast, hsame.2, hstate]

/-- the second read: the transfer is completed with the value of the first one -/
theorem Watched.Tracks.check (hw : w.Tracks l) (h : WatchStep w .check w') :
    w'.Tracks (l ++ [.check]) := by
  have hlast : lastProgress (l ++ [.check]) = lastProgress l := lastProgress_concat l .check
  obtain ⟨changed, hpolling, rfl⟩ := h.check_inv
  obtain ⟨pre, gap, hsplit, hsends, hlive, hbytes, hgap⟩ := hw.looked changed hpolling
  obtain ⟨hsame, hheard, houtcome⟩ := w.entry.transfer.readOutcome_bytes changed
  have hopen := Watched.Tracks.not_completed_of_live hlive
  have hdone := @Transfer.readOutcome_completed _ changed hopen
  -- an outcome `Ok` is that of the task
  have htask : w.entry.transfer.outcomeRx = some (.ok ()) ↔ w.entry.task = some (.ok ()) := by
    rw [hw.sound]
    match w.entry.task with
    | none => exact iff_of_false nofun nofun
    | some (.ok ()) => exact iff_of_true rfl rfl
    | some (.error (.failed _)) => exact iff_of_false nofun nofun
    | some (.error (.panicked _)) => exact iff_of_false nofun nofun
  refine ⟨?_, houtcome.trans hw.sound, fun r hr => ?_, nofun, fun hcompleted => ?_, ?_⟩
  · rw [hlast, ← hw.heard]
    exact hheard
  · rcases List.mem_append.mp hr with hr | hr
    · exact hw.ended r hr
    · cases List.mem_singleton.mp hr
  · exact ⟨rfl, houtcome.trans (hdone.mp hcompleted)⟩
  · rw [overtaken_concat, hdone, htask, hlast, hsame, hbytes]
    constructor
    · rintro (hover | ⟨_, pre', gap', hover⟩)
      · exact absurd (hw.overtaken.mp hover).1 hopen
      · have hpre : pre' = pre := look_unique hover.sends hsends (hover.split.symm.trans hsplit)
        have hmem : .finish (.ok ()) ∈ l := by
          rw [hover.split]
          exact List.mem_append_right _ (List.mem_cons_of_mem _ hover.finished)
        refine ⟨hw.ended _ hmem, fun heq => hover.moved ?_⟩
        rw [hpre, heq]
    · intro ⟨hok, hne⟩
      exact .inr ⟨rfl, pre, gap, hsplit, hsends, hgap hok (Ne.symm hne), Ne.symm hne⟩

theorem Watched.Tracks.step (hw : w.Tracks l) (h : WatchStep w m w') : w'.Tracks (l ++ [m]) := by
  cases m with
  | progress bytes => exact hw.progress h
  | finish r => exact hw.finish h
  | look => exact hw.look h
  | check => exact hw.check h
  | cancel => exact hw.cancel h

theorem tracks_of_path (h : Path WatchStep .spawned l w) : w.Tracks l := by
  induction l using List.reverseRecOn generalizing w with
  | nil =>
    obtain rfl := h.nil_inv
    exact tracks_spawned
  | append_singleton l m ih =>
    obtain ⟨w₀, hpath, hstep⟩ := h.concat_inv
    exact (ih hpath).step hstep

/-- whatever comes between the reads, a completed transfer shows the last progress value of its task,
unless its last `poll` was overtaken -/
theorem completed_shows_last (h : Path WatchStep .spawned l w) :
    (w.entry.transfer.state = .completed → w.entry.transfer.bytesDone = lastProgress l) ↔
      ¬ Overtaken l := by
  rw [(tracks_of_path h).overtaken]
  constructor
  · intro hshows ⟨hcompleted, hne⟩
    exact hne (hshows hcompleted)
  · intro hno hcompleted
    by_contra hne
    exact hno ⟨hcompleted, hne⟩

end

/-! ## downloads -/

/-- what a task sends on the channel of its progress -/
def sentBy (tr : Trace host) : List Moment := (progressSent tr).map .progress

theorem sentBy_append (t u : Trace host) : sentBy (t ++ u) = sentBy t ++ sentBy u := by
  unfold sentBy
  rw [progressSent_append, List.map_append]

theorem sentBy_eq_nil {tr : Trace host} (h : ∀ e ∈ tr, isProgress e.call = false) :
    sentBy tr = [] := by
  unfold sentBy
  rw [progressSent_eq_nil h, List.map_nil]

section
variable {K : Crates} {client : ProtonDriveClient} {task : DownloadTask} {tr : Trace host}

/-- a download shows 0, and at its end the number of its bytes -/
theorem FinishedDownload.sends (d : FinishedDownload K client task tr) :
    sentBy tr = [.progress 0, .progress d.stats.bytes] := by
  have hsetup : sentBy d.setup = [] :=
    sentBy_eq_nil (d.resolved.only (A := fun c => isProgress c = false)
      (only_fileDownloader (fun _ => rfl) _))
  have hbody : sentBy d.body = [] :=
    sentBy_eq_nil (d.downloaded.only (A := fun c => isProgress c = false)
      (within_downloadToWriter (A := fun c => isProgress c = false) (Q := fun _ => True)
        (fun _ => trivial) (fun _ => rfl) (fun _ => rfl) (fun _ => rfl) rfl).1)
  have hshape := congrArg sentBy d.shape
  rw [hshape]
  show sentBy (d.setup ++ _) = _
  rw [sentBy_append, hsetup]
  show .progress 0 :: sentBy (d.body ++ _) = _
  rw [sentBy_append, hbody]
  rfl

/-- the `poll` that sees the first value comes to its second read when the download is over -/
def overtakenBy (bytes : Nat) : List Moment :=
  [.progress 0, .look, .progress bytes, .finish (.ok ()), .check]

theorem overtakenBy_path (bytes : Nat) : ∃ w, Path WatchStep .spawned (overtakenBy bytes) w ∧
    w.entry.transfer.state = .completed ∧ w.entry.transfer.bytesDone = 0 :=
  ⟨_, .cons rfl (.cons rfl (.cons rfl (.cons rfl (.one rfl)))), rfl, rfl⟩

end

/-- a download of one byte that has returned `Ok`: its transfer is completed with no byte shown -/
theorem download_overtaken : ∃ (tr : Trace host) (l : List Moment) (w : Watched),
    Runs (doDownload shortCrates smallClient shortTask).run tr (.done (.ok ())) ∧
    l.filter Moment.isSend = sentBy tr ++ [.finish (.ok ())] ∧ Path WatchStep .spawned l w ∧
    w.entry.transfer.state = .completed ∧ w.entry.transfer.bytesDone ≠ lastProgress l := by
  obtain ⟨tr, d, _, _, hwritten, _⟩ := shortRun_finished
  obtain ⟨f⟩ := downloadToWriter_ok d.downloaded
  have hbytes : d.stats.bytes = 1 := by
    rw [f.bytes, hwritten]
    rfl
  obtain ⟨w, hpath, hcompleted, hshown⟩ := overtakenBy_path d.stats.bytes
  refine ⟨tr, _, w, d.runs, ?_, hpath, hcompleted, ?_⟩
  · rw [d.sends]
    rfl
  · rw [hshown, hbytes]
    decide

/-- the same `poll` one moment later shows the byte -/
theorem completed_shows_last_one : ∃ w, Path WatchStep .spawned
    [.progress 0, .progress 1, .look, .finish (.ok ()), .check] w ∧
    w.entry.transfer.state = .completed ∧ w.entry.transfer.bytesDone = 1 := by
  have hpath : Path WatchStep .spawned
      [.progress 0, .progress 1, .look, .finish (.ok ()), .check] _ :=
    .cons rfl (.cons rfl (.cons rfl (.cons rfl (.one rfl))))
  have hin : ¬ Overtaken [.progress 0, .progress 1, .look, .finish (.ok ()), .check] := by
    rw [(tracks_of_path hpath).overtaken]
    exact fun h => h.2 rfl
  exact ⟨_, hpath, rfl, (completed_shows_last hpath).mpr hin rfl⟩

end ProtonDrive
