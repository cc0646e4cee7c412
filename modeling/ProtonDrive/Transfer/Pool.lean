import ProtonDrive.Lib.Paths
import ProtonDrive.App.Transfer

/-!
# The transfers on the screen (`pdtui`, `app.rs`)

* `Entry`, `Entry.act`   a transfer with its task: the task sends progress and comes to its end, the user
                         interface polls and cancels;
* `Pool`, `PoolStep`     the transfers of the `App`, each with a number of its own; `pollTransfers` polls them
                         all and drops the finished ones when there are more than eight;
* `Reached.entry`        the tasks of the model are entries;
* `Lifecycle`            what is asked of a pool;
* `lifecycle_iff`        it holds of a pool that can be reached exactly if every task that panicked belongs to
                         a transfer that is finished.
-/

set_option linter.unusedVariables false

namespace ProtonDrive
open Encoding Effects Paths

/-! ## one transfer -/

inductive Act where
  | progress (bytes : Nat)
  | finish (r : Except TaskFault Unit)
  | poll
  | cancel

/-- `task` is how the task has ended, if it has -/
structure Entry where
  transfer : Transfer
  task : Option (Except TaskFault Unit)

def Entry.spawned : Entry := { transfer := .spawned, task := none }

/-- a task that has ended sends nothing more -/
def Entry.act (e : Entry) : Act → Option Entry
  | .progress bytes =>
    if e.task.isNone then some { e with transfer := e.transfer.hear (.sendProgress bytes) } else none
  | .finish r =>
    if e.task.isNone then some { transfer := e.transfer.report r, task := some r } else none
  | .poll => some { e with transfer := e.transfer.poll.1 }
  | .cancel => some { e with transfer := e.transfer.cancel }

def Entry.isTerminal (e : Entry) : Bool := e.transfer.state.isTerminal

def Entry.poll (e : Entry) : Entry := { e with transfer := e.transfer.poll.1 }

section
variable {t : Transfer} {e e' : Entry} {a : Act}

theorem Transfer.poll_terminal (h : t.state.isTerminal = true) : t.poll.1 = t := by
  unfold Transfer.poll
  rw [if_pos h]

theorem Transfer.poll_running (h : t.state.isTerminal = false) (hnone : t.outcomeRx = none) :
    t.poll.1.state.isTerminal = false := by
  unfold Transfer.poll
  rw [h]
  by_cases hbytes : t.progressRx = t.bytesDone
  · simp [hbytes, hnone, h]
  · simp [hbytes, hnone, TransferState.isTerminal]

theorem Transfer.poll_ended {r : Except String Unit} (hsome : t.outcomeRx = some r) :
    t.poll.1.state.isTerminal = true := by
  by_cases hterm : t.state.isTerminal = true
  · rw [t.poll_terminal hterm]
    exact hterm
  · have hlive : t.state.isTerminal = false := Bool.not_eq_true _ ▸ hterm
    unfold Transfer.poll
    rw [hlive]
    match r with
    | .ok () =>
      by_cases hbytes : t.progressRx = t.bytesDone <;>
        simp [hbytes, hsome, TransferState.isTerminal]
    | .error msg =>
      by_cases hbytes : t.progressRx = t.bytesDone <;>
        simp [hbytes, hsome, TransferState.isTerminal]

theorem Transfer.cancel_terminal (h : t.state.isTerminal = true) : t.cancel = t := by
  unfold Transfer.cancel
  rw [if_pos h]

/-- a finished transfer stays as it is -/
theorem Entry.act_terminal (h : e.act a = some e') (hterm : e.isTerminal = true) :
    e'.transfer.state = e.transfer.state := by
  cases a with
  | progress bytes =>
    by_cases htask : e.task.isNone = true
    · rw [Entry.act, if_pos htask] at h
      cases h
      rfl
    · rw [Entry.act, if_neg htask] at h
      cases h
  | finish r =>
    by_cases htask : e.task.isNone = true
    · rw [Entry.act, if_pos htask] at h
      cases h
      exact e.transfer.report_state r
    · rw [Entry.act, if_neg htask] at h
      cases h
  | poll =>
    cases h
    show e.transfer.poll.1.state = _
    rw [e.transfer.poll_terminal hterm]
  | cancel =>
    cases h
    show e.transfer.cancel.state = _
    rw [e.transfer.cancel_terminal hterm]

/-- what a task sends as it ends; a task that panics sends nothing -/
def outcomeOf : Except TaskFault Unit → Option (Except String Unit)
  | .ok () => some (.ok ())
  | .error (.failed msg) => some (.error msg)
  | .error (.panicked _) => none

/-- the outcome channel holds what the task has sent -/
def Entry.Sound (e : Entry) : Prop := e.transfer.outcomeRx = e.task.bind outcomeOf

theorem Transfer.poll_outcomeRx (t : Transfer) : t.poll.1.outcomeRx = t.outcomeRx := by
  rcases t.poll_cases with heq | ⟨houtcome, _⟩
  · rw [heq]
  · exact houtcome

theorem Transfer.report_outcomeRx (t : Transfer) (r : Except TaskFault Unit) :
    (t.report r).outcomeRx = (outcomeOf r).or t.outcomeRx := by
  match r with
  | .ok () => rfl
  | .error (.failed msg) => rfl
  | .error (.panicked msg) => rfl

theorem Entry.Sound.act (hs : e.Sound) (h : e.act a = some e') : e'.Sound := by
  unfold Entry.Sound at hs ⊢
  cases a with
  | progress bytes =>
    by_cases htask : e.task.isNone = true
    · rw [Entry.act, if_pos htask] at h
      cases h
      exact hs
    · rw [Entry.act, if_neg htask] at h
      cases h
  | finish r =>
    by_cases htask : e.task.isNone = true
    · rw [Entry.act, if_pos htask] at h
      cases h
      rw [Option.isNone_iff_eq_none.mp htask] at hs
      show (e.transfer.report r).outcomeRx = outcomeOf r
      rw [Transfer.report_outcomeRx, hs]
      exact Option.or_none
    · rw [Entry.act, if_neg htask] at h
      cases h
  | poll =>
    cases h
    exact e.transfer.poll_outcomeRx.trans hs
  | cancel =>
    cases h
    exact e.transfer.cancel_cases.1.trans hs

/-- once the task has ended, the next look finishes the transfer, unless the task panicked -/
theorem Entry.Sound.poll_iff (hs : e.Sound) {r : Except TaskFault Unit} (hr : e.task = some r) :
    e.poll.isTerminal = true ↔ e.isTerminal = true ∨ (outcomeOf r).isSome = true := by
  unfold Entry.Sound at hs
  rw [hr, Option.bind_some] at hs
  show e.transfer.poll.1.state.isTerminal = true ↔ e.transfer.state.isTerminal = true ∨ _
  constructor
  · intro hpoll
    by_contra hno
    obtain ⟨hlive, hnone⟩ := not_or.mp hno
    rw [Option.not_isSome_iff_eq_none] at hnone
    rw [hnone] at hs
    rw [e.transfer.poll_running (Bool.not_eq_true _ ▸ hlive) hs] at hpoll
    cases hpoll
  · rintro (hterm | hsome)
    · rw [e.transfer.poll_terminal hterm]
      exact hterm
    · obtain ⟨sent, hsent⟩ := Option.isSome_iff_exists.mp hsome
      exact e.transfer.poll_ended (hs.trans hsent)

end

theorem Transfer.report_same {t : Transfer} {r : Except TaskFault Unit}
    (h : t.outcomeRx = outcomeOf r) : t.report r = t := by
  obtain ⟨state, bytesDone, progressRx, outcomeRx, cancelled⟩ := t
  match r, h with
  | .ok (), h =>
    cases h
    rfl
  | .error (.failed msg), h =>
    cases h
    rfl
  | .error (.panicked msg), _ => rfl

/-! ### the tasks of the model -/

def EntryStep (e : Entry) (a : Act) (e' : Entry) : Prop := e.act a = some e'

/-- what happens to a task of the model and its transfer, happens to an entry -/
theorem Reached.entry {task : Task Unit} {tr : Trace host} {t : Transfer} (h : Reached task tr t) :
    ∃ l e, Path EntryStep .spawned l e ∧ e.transfer = t ∧
      ∀ r, e.task = some r → Runs task.run tr (.done r) := by
  induction h with
  | spawn => exact ⟨[], .spawned, .nil _, rfl, nofun⟩
  | @call tr t ev h hrun hfit ih =>
    obtain ⟨l, e, hpath, rfl, htask⟩ := ih
    have hnone : e.task = none := by
      cases hr : e.task with
      | none => rfl
      | some r => exact absurd hrun (htask r hr).done_final
    obtain ⟨c, a⟩ := ev
    have hkeeps : ∀ r, e.task = some r → Runs task.run (tr ++ [⟨c, a⟩]) (.done r) := by
      intro r hr
      rw [hnone] at hr
      cases hr
    cases c with
    | sendProgress bytes =>
      refine ⟨l ++ [.progress bytes], { e with transfer := e.transfer.hear (.sendProgress bytes) },
        hpath.concat ?_, rfl, hkeeps⟩
      rw [EntryStep, Entry.act, if_pos (by rw [hnone]; rfl)]
    | _ => exact ⟨l, e, hpath, rfl, hkeeps⟩
  | @finish tr t r h hrun ih =>
    obtain ⟨l, e, hpath, rfl, htask⟩ := ih
    cases hr : e.task with
    | none =>
      refine ⟨l ++ [.finish r], { transfer := e.transfer.report r, task := some r },
        hpath.concat ?_, rfl, fun r' hr' => ?_⟩
      · rw [EntryStep, Entry.act, if_pos (by rw [hr]; rfl)]
      · cases hr'
        exact hrun
    | some r' =>
      -- the task has reported before, and reports the same again
      obtain rfl := (htask r' hr).done_unique hrun
      have hsound : e.Sound :=
        hpath.invariant (I := Entry.Sound) (fun _ _ _ _ hs hact => Entry.Sound.act hs hact) rfl
      unfold Entry.Sound at hsound
      rw [hr, Option.bind_some] at hsound
      exact ⟨l, e, hpath, (Transfer.report_same hsound).symm, htask⟩
  | @poll tr t h ih =>
    obtain ⟨l, e, hpath, rfl, htask⟩ := ih
    have hstep : EntryStep e .poll e.poll := rfl
    exact ⟨l ++ [.poll], e.poll, hpath.concat hstep, rfl, htask⟩
  | @cancel tr t h ih =>
    obtain ⟨l, e, hpath, rfl, htask⟩ := ih
    have hstep : EntryStep e .cancel { e with transfer := e.transfer.cancel } := rfl
    refine ⟨l ++ [.cancel], { e with transfer := e.transfer.cancel }, hpath.concat hstep, rfl, ?_⟩
    exact htask

/-! ## the transfers of the `App` -/

/-- each transfer stands under the number it was spawned with -/
structure Pool where
  next : Nat
  transfers : List (Nat × Entry)

inductive Op where
  | spawn
  | act (i : Nat) (a : Act)
  | pollTransfers

def Pool.new : Pool := { next := 0, transfers := [] }

def polled (transfers : List (Nat × Entry)) : List (Nat × Entry) :=
  transfers.map fun x => (x.1, x.2.poll)

/-- poll all, then drop the finished ones if there are more than eight -/
def pollTransfers (transfers : List (Nat × Entry)) : List (Nat × Entry) :=
  if (polled transfers).length > 8 then (polled transfers).filter fun x => !x.2.isTerminal
  else polled transfers

inductive PoolStep : Pool → Op → Pool → Prop
  | spawn (p : Pool) : PoolStep p .spawn
      { next := p.next + 1, transfers := p.transfers ++ [(p.next, .spawned)] }
  | act {n i : Nat} {before after : List (Nat × Entry)} {e e' : Entry} {a : Act}
      (h : e.act a = some e') :
      PoolStep { next := n, transfers := before ++ (i, e) :: after } (.act i a)
        { next := n, transfers := before ++ (i, e') :: after }
  | pollTransfers (p : Pool) : PoolStep p .pollTransfers
      { p with transfers := pollTransfers p.transfers }

def numbers (transfers : List (Nat × Entry)) : List Nat := transfers.map Prod.fst

/-- what is true of every pool that can be reached -/
structure Pool.Good (p : Pool) : Prop where
  nodup : (numbers p.transfers).Nodup
  fresh : ∀ i ∈ numbers p.transfers, i < p.next
  sound : ∀ x ∈ p.transfers, x.2.Sound

section
variable {p q : Pool} {op : Op} {i : Nat} {e e' : Entry} {transfers : List (Nat × Entry)}

theorem mem_numbers (h : (i, e) ∈ transfers) : i ∈ numbers transfers :=
  List.mem_map_of_mem h

theorem numbers_polled : numbers (polled transfers) = numbers transfers := by
  unfold numbers polled
  rw [List.map_map]
  rfl

theorem numbers_pollTransfers : List.Sublist (numbers (pollTransfers transfers)) (numbers transfers) := by
  unfold pollTransfers
  split
  · have hsub : List.Sublist (numbers ((polled transfers).filter fun x => !x.2.isTerminal))
        (numbers (polled transfers)) := List.filter_sublist.map _
    rwa [numbers_polled] at hsub
  · rw [numbers_polled]

/-- what is left after polling was polled -/
theorem mem_pollTransfers (h : (i, e') ∈ pollTransfers transfers) :
    ∃ e, (i, e) ∈ transfers ∧ e' = e.poll := by
  have hmem : (i, e') ∈ polled transfers := by
    unfold pollTransfers at h
    split at h
    · exact (List.mem_filter.mp h).1
    · exact h
  obtain ⟨x, hx, heq⟩ := List.mem_map.mp hmem
  cases heq
  exact ⟨x.2, hx, rfl⟩

/-- what is dropped is finished -/
theorem pollTransfers_drops (h : (i, e) ∈ transfers) :
    (i, e.poll) ∈ pollTransfers transfers ∨ e.poll.isTerminal = true := by
  have hmem : (i, e.poll) ∈ polled transfers := List.mem_map.mpr ⟨(i, e), h, rfl⟩
  unfold pollTransfers
  by_cases hterm : e.poll.isTerminal = true
  · exact .inr hterm
  · split
    · exact .inl (List.mem_filter.mpr ⟨hmem, by simpa using hterm⟩)
    · exact .inl hmem

theorem pollTransfers_capped : (pollTransfers transfers).length ≤ 8 ∨
    ∀ x ∈ pollTransfers transfers, x.2.isTerminal = false := by
  unfold pollTransfers
  split
  · refine .inr fun x hx => ?_
    simpa using (List.mem_filter.mp hx).2
  · next hcap => exact .inl (by omega)

/-- a number stands for one transfer -/
theorem Pool.Good.unique (hg : p.Good) (h : (i, e) ∈ p.transfers) (h' : (i, e') ∈ p.transfers) :
    e = e' := by
  have hinj := List.inj_on_of_nodup_map hg.nodup
  exact congrArg Prod.snd (hinj h h' rfl)

theorem PoolStep.good (hg : p.Good) (h : PoolStep p op q) : q.Good := by
  cases h with
  | spawn =>
    have hnumbers : numbers (p.transfers ++ [(p.next, .spawned)]) = numbers p.transfers ++ [p.next] :=
      List.map_append
    refine ⟨?_, fun i hi => ?_, fun x hx => ?_⟩
    · rw [hnumbers, ← List.concat_eq_append]
      refine List.Nodup.concat (fun hnext => ?_) hg.nodup
      exact absurd (hg.fresh _ hnext) (Nat.lt_irrefl _)
    · rw [hnumbers] at hi
      show i < p.next + 1
      rcases List.mem_append.mp hi with hi | hi
      · have hlt := hg.fresh i hi
        omega
      · rw [List.mem_singleton.mp hi]
        exact Nat.lt_succ_self _
    · rcases List.mem_append.mp hx with hx | hx
      · exact hg.sound x hx
      · rw [List.mem_singleton.mp hx]
        rfl
  | @act n i before after e e' a ha =>
    have hnumbers : numbers (before ++ (i, e') :: after) = numbers (before ++ (i, e) :: after) := by
      unfold numbers
      rw [List.map_append, List.map_append]
      rfl
    refine ⟨?_, fun j hj => ?_, fun x hx => ?_⟩
    · rw [hnumbers]
      exact hg.nodup
    · rw [hnumbers] at hj
      exact hg.fresh j hj
    · have hold : e.Sound := hg.sound (i, e) (List.mem_append_right _ List.mem_cons_self)
      rcases List.mem_append.mp hx with hx | hx
      · exact hg.sound x (List.mem_append_left _ hx)
      · rcases List.mem_cons.mp hx with rfl | hx
        · exact hold.act ha
        · exact hg.sound x (List.mem_append_right _ (List.mem_cons_of_mem _ hx))
  | pollTransfers =>
    refine ⟨hg.nodup.sublist numbers_pollTransfers, fun i hi => ?_, fun x hx => ?_⟩
    · exact hg.fresh i (numbers_pollTransfers.subset hi)
    · obtain ⟨i, e'⟩ := x
      obtain ⟨e, he, rfl⟩ := mem_pollTransfers hx
      exact Entry.Sound.act (hg.sound _ he) (a := .poll) rfl

theorem Pool.new_good : Pool.new.Good where
  nodup := List.nodup_nil
  fresh := nofun
  sound := nofun

theorem Pool.good_of_path {l : List Op} (h : Path PoolStep p l q) (hg : p.Good) : q.Good :=
  h.invariant (fun _ _ _ _ hgood hstep => hstep.good hgood) hg

/-- a transfer goes on, or it is dropped and was finished -/
theorem PoolStep.kept (h : PoolStep p op q) (he : (i, e) ∈ p.transfers) :
    (∃ e', (i, e') ∈ q.transfers ∧ (e' = e ∨ ∃ a, e.act a = some e')) ∨
      (op = .pollTransfers ∧ e.poll.isTerminal = true) := by
  cases h with
  | spawn => exact .inl ⟨e, List.mem_append_left _ he, .inl rfl⟩
  | @act n j before after e₀ e₁ a ha =>
    left
    rcases List.mem_append.mp he with he | he
    · exact ⟨e, List.mem_append_left _ he, .inl rfl⟩
    · rcases List.mem_cons.mp he with heq | he
      · cases heq
        exact ⟨e₁, List.mem_append_right _ List.mem_cons_self, .inr ⟨a, ha⟩⟩
      · exact ⟨e, List.mem_append_right _ (List.mem_cons_of_mem _ he), .inl rfl⟩
  | pollTransfers =>
    rcases pollTransfers_drops he with hmem | hterm
    · exact .inl ⟨e.poll, hmem, .inr ⟨.poll, rfl⟩⟩
    · exact .inr ⟨rfl, hterm⟩

/-- a number that is gone does not come back -/
theorem PoolStep.gone (hi : i < p.next) (hgone : i ∉ numbers p.transfers) (h : PoolStep p op q) :
    i < q.next ∧ i ∉ numbers q.transfers := by
  cases h with
  | spawn =>
    refine ⟨Nat.lt_succ_of_lt hi, fun hmem => ?_⟩
    unfold numbers at hmem
    rw [List.map_append] at hmem
    rcases List.mem_append.mp hmem with hmem | hmem
    · exact hgone hmem
    · have heq : i = p.next := List.mem_singleton.mp hmem
      omega
  | @act n j before after e₀ e₁ a ha =>
    refine ⟨hi, fun hmem => hgone ?_⟩
    unfold numbers at hmem ⊢
    rw [List.map_append] at hmem ⊢
    exact hmem
  | pollTransfers => exact ⟨hi, fun hmem => hgone (numbers_pollTransfers.subset hmem)⟩

/-- a finished transfer stays as it is, as long as it is there -/
theorem stable_of_path {l : List Op} (hg : p.Good) (he : (i, e) ∈ p.transfers)
    (hterm : e.isTerminal = true) (h : Path PoolStep p l q) (he' : (i, e') ∈ q.transfers) :
    e'.transfer.state = e.transfer.state := by
  induction h generalizing e with
  | nil p => rw [hg.unique he he']
  | @cons p op p₁ q l hstep hrest ih =>
    have hgone : i ∉ numbers p₁.transfers → e'.transfer.state = e.transfer.state := by
      intro hno
      have hlt : i < p₁.next := by
        have hpi := hg.fresh i (mem_numbers he)
        cases hstep with
        | spawn => exact Nat.lt_succ_of_lt hpi
        | act _ => exact hpi
        | pollTransfers => exact hpi
      have hlost := hrest.invariant (I := fun p => i < p.next ∧ i ∉ numbers p.transfers)
        (fun _ _ _ _ hI hs => hs.gone hI.1 hI.2) ⟨hlt, hno⟩
      exact absurd (mem_numbers he') hlost.2
    by_cases hthere : i ∈ numbers p₁.transfers
    · obtain ⟨⟨i, e₂⟩, hx, rfl⟩ := List.mem_map.mp hthere
      rcases hstep.kept he with ⟨e₁, he₁, hsame | ⟨a, ha⟩⟩ | ⟨rfl, _⟩
      · subst hsame
        exact ih (hstep.good hg) he₁ hterm he'
      · have hstate := Entry.act_terminal ha hterm
        have hterm₁ : e₁.isTerminal = true := by
          unfold Entry.isTerminal
          rw [hstate]
          exact hterm
        rw [← hstate]
        exact ih (hstep.good hg) he₁ hterm₁ he'
      · cases hstep
        obtain ⟨e₁, he₁, rfl⟩ := mem_pollTransfers hx
        obtain rfl := hg.unique he he₁
        have hpolled : e.poll.transfer = e.transfer := e.transfer.poll_terminal hterm
        have hstate := ih (PoolStep.good hg (.pollTransfers p)) hx
          (by unfold Entry.isTerminal; rw [hpolled]; exact hterm) he'
        rw [hstate, hpolled]
    · exact hgone hthere

/-- what is asked of the transfers from a moment on: a finished one never changes, one that is not finished
is not dropped, at most eight are left after polling if any of them is finished, and the next look at a transfer
whose task has ended finishes it -/
structure Lifecycle (p : Pool) : Prop where
  stable : ∀ l q i e e', (i, e) ∈ p.transfers → e.isTerminal = true → Path PoolStep p l q →
    (i, e') ∈ q.transfers → e'.transfer.state = e.transfer.state
  kept : ∀ op q i e, (i, e) ∈ p.transfers → PoolStep p op q →
    (∃ e', (i, e') ∈ q.transfers) ∨ (op = .pollTransfers ∧ e.poll.isTerminal = true)
  capped : ∀ q, PoolStep p .pollTransfers q →
    q.transfers.length ≤ 8 ∨ ∀ x ∈ q.transfers, x.2.isTerminal = false
  ended : ∀ i e r, (i, e) ∈ p.transfers → e.task = some r → e.poll.isTerminal = true

theorem lifecycle_iff {l : List Op} (h : Path PoolStep .new l p) :
    Lifecycle p ↔ ∀ i e msg, (i, e) ∈ p.transfers → e.task = some (.error (.panicked msg)) →
      e.isTerminal = true := by
  have hg : p.Good := Pool.good_of_path h Pool.new_good
  constructor
  · intro hlife i e msg he htask
    have hpoll := hlife.ended i e _ he htask
    rcases ((hg.sound _ he).poll_iff htask).mp hpoll with hterm | hsent
    · exact hterm
    · cases hsent
  · intro hpanics
    refine ⟨fun l q i e e' he hterm hpath he' => stable_of_path hg he hterm hpath he',
      fun op q i e he hstep => ?_, fun q hstep => ?_, fun i e r he htask => ?_⟩
    · rcases hstep.kept he with ⟨e', he', _⟩ | hdropped
      · exact .inl ⟨e', he'⟩
      · exact .inr hdropped
    · cases hstep
      exact pollTransfers_capped
    · refine ((hg.sound _ he).poll_iff htask).mpr ?_
      match r, htask with
      | .ok (), _ => exact .inr rfl
      | .error (.failed msg), _ => exact .inr rfl
      | .error (.panicked msg), htask => exact .inl (hpanics i e msg he htask)

end

/-! ## a task that ends -/

/-- the only transfer, and how its task has ended -/
def endedPool (r : Except TaskFault Unit) : Pool :=
  { next := 1, transfers := [(0, { transfer := Transfer.spawned.report r, task := some r })] }

theorem endedPool_path (r : Except TaskFault Unit) :
    Path PoolStep .new [.spawn, .act 0 (.finish r)] (endedPool r) := by
  have hfinish : PoolStep { next := 1, transfers := [] ++ [(0, .spawned)] } (.act 0 (.finish r))
      { next := 1, transfers :=
          [] ++ [(0, { transfer := Transfer.spawned.report r, task := some r })] } := .act rfl
  exact .cons (.spawn .new) (.one hfinish)

theorem returnedPool_lifecycle : Lifecycle (endedPool (.ok ())) := by
  refine (lifecycle_iff (endedPool_path _)).mpr fun i e msg he htask => ?_
  cases List.mem_singleton.mp he
  cases htask

/-- a task that panicked leaves its transfer running -/
theorem panickedPool_stays : Path PoolStep .new [.spawn, .act 0 (.finish (.error (.panicked "")))]
      (endedPool (.error (.panicked ""))) ∧ ¬ Lifecycle (endedPool (.error (.panicked ""))) := by
  refine ⟨endedPool_path _, fun h => ?_⟩
  have hpoll := h.ended 0 _ _ List.mem_cons_self rfl
  revert hpoll
  decide

end ProtonDrive
