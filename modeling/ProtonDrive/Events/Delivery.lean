import ProtonDrive.Events.Loop
import ProtonDrive.Core.Scripted

/-!
# No event is lost

The host keeps the cursor in a provider that outlives the task.  A `set` that fails may have stored its
cursor or not, and a task may stop at any call, with another one started on the same provider.

* `Provides`           what the provider holds after the calls of a trace;
* `Lives`              one life of the task after the other, with what was seen in all of them, what the
                       provider holds, and the first start cursor any of them resolved;
* `AtLoop.accounted`   at the head of the loop every event up to the variable `cursor`, and up to the
                       stored cursor, was passed on or is made up for by a refresh;
* `no_event_lost`      so it is at every moment of every life.
-/

set_option linter.unusedVariables false

namespace ProtonDrive
open Encoding Effects Api

/-! ## the provider -/

def usesProvider : HostCall → Bool
  | .providerGet => true
  | .providerSet _ => true
  | _ => false

/-- the provider held the first value before the calls of the trace, and holds the second after them -/
inductive Provides : Option String → Trace host → Option String → Prop
  | nil (s) : Provides s [] s
  | got {s tr s'} (h : Provides s tr s') : Provides s (⟨.providerGet, .ok s⟩ :: tr) s'
  | notGot {s tr s' e} (h : Provides s tr s') : Provides s (⟨.providerGet, .error e⟩ :: tr) s'
  | set {s c a tr s'} (h : Provides (some c) tr s') : Provides s (⟨.providerSet c, a⟩ :: tr) s'
  | notSet {s c e tr s'} (h : Provides s tr s') : Provides s (⟨.providerSet c, .error e⟩ :: tr) s'
  | other {s e tr s'} (hcall : usesProvider e.call = false) (h : Provides s tr s') :
      Provides s (e :: tr) s'

section
variable {s s' : Option String} {tr tr' : Trace host}

theorem Provides.append_inv (h : Provides s (tr ++ tr') s') :
    ∃ m, Provides s tr m ∧ Provides m tr' s' := by
  induction tr generalizing s with
  | nil => exact ⟨s, .nil s, h⟩
  | cons e tr ih =>
    cases h with
    | got h =>
      obtain ⟨m, h₁, h₂⟩ := ih h
      exact ⟨m, .got h₁, h₂⟩
    | notGot h =>
      obtain ⟨m, h₁, h₂⟩ := ih h
      exact ⟨m, .notGot h₁, h₂⟩
    | set h =>
      obtain ⟨m, h₁, h₂⟩ := ih h
      exact ⟨m, .set h₁, h₂⟩
    | notSet h =>
      obtain ⟨m, h₁, h₂⟩ := ih h
      exact ⟨m, .notSet h₁, h₂⟩
    | other hcall h =>
      obtain ⟨m, h₁, h₂⟩ := ih h
      exact ⟨m, .other hcall h₁, h₂⟩

/-- without its calls the provider holds what it held -/
theorem Provides.silent (h : Provides s tr s') (hno : ∀ e ∈ tr, usesProvider e.call = false) :
    s' = s := by
  induction h with
  | nil => rfl
  | got => cases hno _ List.mem_cons_self
  | notGot => cases hno _ List.mem_cons_self
  | set => cases hno _ List.mem_cons_self
  | notSet => cases hno _ List.mem_cons_self
  | other hcall h ih => exact ih fun e he => hno e (List.mem_cons_of_mem _ he)

end

/-! ## the start cursor -/

section
variable {K : Crates} {volumeId : String} {tr : Trace host} {c : String}

theorem resolve_ok (h : Runs (resolveStartCursor K volumeId).run tr (.done (.ok c))) :
    tr = [⟨.providerGet, .ok (some c)⟩] ∨
      ∃ resp, tr = [⟨.providerGet, .ok none⟩, ⟨.requestJson (latestGet volumeId), .ok resp⟩,
        ⟨.providerSet c, .ok ()⟩] := by
  obtain ⟨got, t₁, u₁, rfl, h₁, k₁⟩ := h.bindE_ok
  obtain ⟨stored, t₂, u₂, rfl, h₂, k₂⟩ := k₁.bindE_ok
  obtain rfl := call_ok h₁
  obtain ⟨rfl, rfl⟩ := ofExcept_ok h₂
  cases stored with
  | some cursor =>
    obtain ⟨rfl, rfl⟩ := pure_ok k₂
    exact .inl rfl
  | none =>
    obtain ⟨latest, t₃, u₃, rfl, h₃, k₃⟩ := Runs.bindE_ok k₂
    obtain ⟨set, t₄, u₄, rfl, h₄, k₄⟩ := k₃.bindE_ok
    obtain ⟨_, t₅, u₅, rfl, h₅, k₅⟩ := k₄.bindE_ok
    obtain ⟨rfl, rfl⟩ := pure_ok k₅
    obtain ⟨rfl, rfl⟩ := ofExcept_ok h₅
    obtain rfl := call_ok h₄
    obtain ⟨resp, t₆, u₆, rfl, h₆, k₆⟩ := h₃.bindE_ok
    obtain ⟨rfl, _⟩ := pure_ok k₆
    obtain ⟨answer, rfl, _⟩ := getChecked_ok h₆
    exact .inr ⟨answer, rfl⟩

/-- a cursor that was resolved is stored, and is the one that was stored if there was one -/
theorem resolve_provides {s m : Option String}
    (h : Runs (resolveStartCursor K volumeId).run tr (.done (.ok c))) (hstore : Provides s tr m) :
    m = some c ∧ (s = some c ∨ s = none) := by
  rcases resolve_ok h with rfl | ⟨resp, rfl⟩
  · cases hstore with
    | got h =>
      cases h with
      | nil => exact ⟨rfl, .inl rfl⟩
    | other hcall => cases hcall
  · cases hstore with
    | got h =>
      cases h with
      | other _ h =>
        cases h with
        | set h =>
          cases h with
          | nil => exact ⟨rfl, .inr rfl⟩
        | other hcall => cases hcall
    | other hcall => cases hcall

/-- where a cursor is stored, resolving stores no other -/
theorem resolve_keeps {p : String} {m : Option String} {o : Outcome (Except Fault String)}
    (h : Runs (resolveStartCursor K volumeId).run tr o) (hstore : Provides (some p) tr m) :
    m = some p := by
  rcases Runs.call_inv h with ⟨rfl, _⟩ | ⟨got, t, rfl, k⟩
  · exact hstore.silent (List.forall_mem_nil _)
  · have hrest : t = [] := by
      cases hstore with
      | got h => exact (Runs.ret_inv k).1
      | notGot h => exact (Runs.ret_inv k).1
      | other hcall => cases hcall
    subst hrest
    cases hstore with
    | got h => exact h.silent (List.forall_mem_nil _)
    | notGot h => exact h.silent (List.forall_mem_nil _)
    | other hcall => cases hcall

/-- the task has resolved its start cursor -/
def Started (K : Crates) (volumeId : String) (tr : Trace host) (c : String) : Prop :=
  ∃ t, t <+: tr ∧ Runs (resolveStartCursor K volumeId).run t (.done (.ok c))

theorem Started.unique {c' : String} (h : Started K volumeId tr c) (h' : Started K volumeId tr c') :
    c = c' := by
  obtain ⟨t, ht, hrun⟩ := h
  obtain ⟨t', ht', hrun'⟩ := h'
  have hsame : t = t' := by
    rcases List.prefix_or_prefix_of_prefix ht ht' with hpre | hpre
    · obtain ⟨u, rfl⟩ := hpre
      cases u with
      | nil => exact (List.append_nil t).symm
      | cons e u => exact absurd hrun' hrun.done_final
    · obtain ⟨u, rfl⟩ := hpre
      cases u with
      | nil => exact List.append_nil t'
      | cons e u => exact absurd hrun hrun'.done_final
  subst hsame
  exact Except.ok.inj (hrun.done_unique hrun')

end

/-! ## what a life accounts for -/

section
variable {log : EventLog} {K : Crates} {volumeId : String} {H tr : Trace host} {a : Nat}

theorem mem_between_dispatches {x : DriveEvent × Nat} {b : Nat} (hx : x ∈ log.dispatches volumeId)
    (hax : a ≤ x.2) (hxb : x.2 < b) : x ∈ between (log.dispatches volumeId) a b := by
  unfold EventLog.dispatches at hx ⊢
  rw [← zipIdx_between, List.mem_zipIdx_iff_le_and_getElem?_sub]
  refine ⟨hax, ?_⟩
  have hindex := List.mem_zipIdx_iff_getElem?.mp hx
  unfold between
  rw [List.getElem?_take_of_lt (by omega), List.getElem?_drop, Nat.add_sub_cancel' hax]
  exact hindex

/-- a drain that returned accounts for the events up to its new cursor -/
theorem Accounted.drain {fuel : Nat} {cursor : String} {t : Trace host} {r : DrainResult}
    (h : Accounted log K volumeId H a (log.place cursor))
    (hdrain : Runs (drainVolumeEvents K volumeId fuel cursor).run t (.done (.ok r)))
    (hlog : EachPage log.Honest K volumeId t) : Accounted log K volumeId (H ++ t) a (log.place r.cursor) := by
  intro x hx hax hxb
  by_cases hold : x.2 < log.place cursor
  · exact h.append x hx hax hold
  · rcases (drain_passes hdrain hlog (standsAt log volumeId 0 H)).2 r rfl with hcov | hpassed
    · exact .inr ⟨_, hxb, hcov.append_right⟩
    · refine .inl ?_
      unfold passed
      rw [passedFrom_append]
      exact List.mem_append_right _
        (hpassed.subset (mem_between_dispatches hx (Nat.le_of_not_lt hold) hxb))

theorem due_silent (retry : Nat) : ∀ e ∈ due retry, usesProvider e.call = false := by
  intro e he
  rcases List.mem_cons.mp he with rfl | he
  · rfl
  · rw [List.mem_singleton.mp he]
    rfl

theorem drain_silent {fuel : Nat} {cursor : String} {t : Trace host}
    {o : Outcome (Except Fault DrainResult)}
    (h : Runs (drainVolumeEvents K volumeId fuel cursor).run t o) :
    ∀ e ∈ t, usesProvider e.call = false :=
  h.only (within_drain (A := fun c => usesProvider c = false) (Q := fun _ => True)
    (fun _ => trivial) (fun _ => rfl) fun _ _ => rfl).1

/-- between two turns the provider is not called before the drain has returned -/
theorem turn_silent {retry fuel : Nat} {cursor : String} {t : Trace host}
    {o : Outcome (Except Fault DrainResult)}
    (h : Runs (drainVolumeEvents K volumeId fuel cursor).run t o) :
    ∀ e ∈ due retry ++ t, usesProvider e.call = false := by
  intro e he
  rcases List.mem_append.mp he with he | he
  · exact due_silent retry e he
  · exact drain_silent h e he

theorem LastTurn.silent {cursor : String} {retry : Nat} {t : Trace host}
    {o : Outcome (Except Fault Unit)} (h : LastTurn K volumeId cursor retry t o) :
    ∀ e ∈ t, usesProvider e.call = false := by
  cases h with
  | spent => exact List.forall_mem_nil _
  | waiting ht =>
    rcases ht with rfl | rfl
    · exact List.forall_mem_nil _
    · intro e he
      rw [List.mem_singleton.mp he]
      rfl
  | cancelled ht _ =>
    cases ht with
    | asleep =>
      intro e he
      rw [List.mem_singleton.mp he]
      rfl
    | awake =>
      intro e he
      rcases List.mem_cons.mp he with rfl | he
      · rfl
      · rw [List.mem_singleton.mp he]
        rfl
  | draining h _ _ => exact turn_silent h
  | drained h => exact turn_silent h
  | removed h _ =>
    intro e he
    rcases List.mem_append.mp he with he | he
    · exact turn_silent h e he
    · rw [List.mem_singleton.mp he]
      rfl

/-- the step from one head of the loop to the next, and from the start to the first: `hstart` says what
the start accounts for -/
theorem AtLoop.accounted {cursor : String} {retry : Nat} {s s' : Option String}
    (h : AtLoop K volumeId tr cursor retry) (hstore : Provides s tr s')
    (hlog : EachPage log.Honest K volumeId tr)
    (hstart : ∀ t c, t <+: tr → Runs (resolveStartCursor K volumeId).run t (.done (.ok c)) →
      Accounted log K volumeId (H ++ t) a (log.place c)) :
    Accounted log K volumeId (H ++ tr) a (log.place cursor) ∧
      ∃ p, s' = some p ∧ Accounted log K volumeId (H ++ tr) a (log.place p) := by
  induction h generalizing s' with
  | start hresolve =>
    have hacc := hstart _ _ List.prefix_rfl hresolve
    exact ⟨hacc, _, (resolve_provides hresolve hstore).1, hacc⟩
  | @persisted tr cursor retry fuel t r ans hat hdrain ih =>
    obtain ⟨m, hm, hrest⟩ := hstore.append_inv
    obtain ⟨m', hm', hset⟩ := hrest.append_inv
    obtain rfl := hm'.silent (turn_silent hdrain)
    obtain ⟨hlog₁, hlog₂⟩ := EachPage.append_iff.mp hlog
    obtain ⟨hlog₂, _⟩ := EachPage.append_iff.mp hlog₂
    obtain ⟨_, hlog₂⟩ := EachPage.append_iff.mp hlog₂
    obtain ⟨hcur, p, hp, hacc⟩ := ih hm hlog₁ fun t c ht => hstart t c (ht.trans (List.prefix_append _ _))
    have hnew : Accounted log K volumeId
        (H ++ (tr ++ (due retry ++ t ++ [⟨.providerSet r.cursor, ans⟩]))) a (log.place r.cursor) := by
      have hdue : Accounted log K volumeId (H ++ tr ++ due retry) a (log.place cursor) := hcur.append
      have hall : Accounted log K volumeId
          (H ++ tr ++ due retry ++ t ++ [⟨.providerSet r.cursor, ans⟩]) a (log.place r.cursor) :=
        (hdue.drain hdrain hlog₂).append
      simpa only [List.append_assoc] using hall
    have hold : Accounted log K volumeId
        (H ++ (tr ++ (due retry ++ t ++ [⟨.providerSet r.cursor, ans⟩]))) a (log.place p) := by
      rw [← List.append_assoc]
      exact hacc.append
    refine ⟨hnew, ?_⟩
    cases hset with
    | set hnil => exact ⟨_, hnil.silent (List.forall_mem_nil _), hnew⟩
    | notSet hnil => exact ⟨p, (hnil.silent (List.forall_mem_nil _)).trans hp, hold⟩
    | other hcall _ => cases hcall
  | @failed tr cursor retry fuel t e hat hdrain he ih =>
    obtain ⟨m, hm, hrest⟩ := hstore.append_inv
    obtain rfl := hrest.silent (turn_silent hdrain)
    obtain ⟨hlog₁, _⟩ := EachPage.append_iff.mp hlog
    obtain ⟨hcur, p, hp, hacc⟩ := ih hm hlog₁ fun t c ht => hstart t c (ht.trans (List.prefix_append _ _))
    rw [← List.append_assoc]
    exact ⟨hcur.append, p, hp, hacc.append⟩

end

/-! ## the lives of the task -/

/-- `first` is the first start cursor that was resolved -/
structure Feed where
  seen : Trace host
  stored : Option String
  first : Option String

inductive Lives (K : Crates) (volumeId : String) (s : Option String) : Feed → Prop
  | new : Lives K volumeId s { seen := [], stored := s, first := none }
  | idle {f fuel tr o m} (h : Lives K volumeId s f)
      (hrun : Runs (spawnVolumeEventLoop K volumeId fuel).run tr o)
      (hstore : Provides f.stored tr m) (hidle : ∀ c, ¬ Started K volumeId tr c) :
      Lives K volumeId s { seen := f.seen ++ tr, stored := m, first := f.first }
  | started {f fuel tr o m c} (h : Lives K volumeId s f)
      (hrun : Runs (spawnVolumeEventLoop K volumeId fuel).run tr o)
      (hstore : Provides f.stored tr m) (hstarted : Started K volumeId tr c) :
      Lives K volumeId s { seen := f.seen ++ tr, stored := m, first := some (f.first.getD c) }

section
variable {log : EventLog} {K : Crates} {volumeId : String} {s : Option String} {f : Feed}

/-- the life `tr` after the lives of `f`: what it accounts for, if `f` has accounted for the events up
to the stored cursor -/
theorem life_accounted {fuel : Nat} {tr : Trace host} {o : Outcome (Except Fault Unit)}
    {m : Option String} {a : Nat}
    (hrun : Runs (spawnVolumeEventLoop K volumeId fuel).run tr o) (hstore : Provides f.stored tr m)
    (hlog : EachPage log.Honest K volumeId tr)
    (hstart : ∀ t c, t <+: tr → Runs (resolveStartCursor K volumeId).run t (.done (.ok c)) →
      Accounted log K volumeId (f.seen ++ t) a (log.place c))
    (hstored : (∃ p, f.stored = some p ∧ Accounted log K volumeId f.seen a (log.place p)) ∨
      ∃ c, Started K volumeId tr c) :
    ∃ p, m = some p ∧ Accounted log K volumeId (f.seen ++ tr) a (log.place p) := by
  rcases task_cases hrun with ⟨o₁, hresolve, _, _⟩ | ⟨tr', cursor, retry, t, rfl, hat, hlast⟩
  · by_cases hstarted : ∃ c, Started K volumeId tr c
    · obtain ⟨c, t, ⟨u, rfl⟩, hdone⟩ := hstarted
      cases u with
      | nil =>
        rw [List.append_nil] at hstore hstart ⊢
        exact ⟨c, (resolve_provides hdone hstore).1, hstart t c List.prefix_rfl hdone⟩
      | cons e u => exact absurd hresolve hdone.done_final
    · obtain ⟨p, hp, hacc⟩ := hstored.resolve_right hstarted
      rw [hp] at hstore
      exact ⟨p, resolve_keeps hresolve hstore, hacc.append⟩
  · obtain ⟨m', hm', hrest⟩ := hstore.append_inv
    obtain rfl := hrest.silent hlast.silent
    obtain ⟨_, p, hp, hacc⟩ := hat.accounted hm' (EachPage.append_iff.mp hlog).1
      fun t c ht => hstart t c (ht.trans (List.prefix_append _ _))
    refine ⟨p, hp, ?_⟩
    rw [← List.append_assoc]
    exact hacc.append

/-- what the lives of `f` have accounted for -/
def Feed.Sound (log : EventLog) (K : Crates) (volumeId : String) (f : Feed) : Prop :=
  ∀ c, f.first = some c →
    ∃ p, f.stored = some p ∧ Accounted log K volumeId f.seen (log.place c) (log.place p)

/-- a life that resolves its start cursor begins where the lives before it have come to -/
theorem Feed.Sound.start {tr : Trace host} {m : Option String} {c : String}
    (h : f.Sound log K volumeId) (hstore : Provides f.stored tr m)
    (hfirst : f.first = some c ∨ (f.first = none ∧ Started K volumeId tr c)) {t : Trace host}
    {c' : String} (ht : t <+: tr)
    (hrun : Runs (resolveStartCursor K volumeId).run t (.done (.ok c'))) :
    Accounted log K volumeId (f.seen ++ t) (log.place c) (log.place c') := by
  rcases hfirst with hfirst | ⟨_, hstarted⟩
  · obtain ⟨p, hp, hacc⟩ := h c hfirst
    obtain ⟨u, rfl⟩ := ht
    obtain ⟨m', hm', _⟩ := hstore.append_inv
    rw [hp] at hm'
    rcases (resolve_provides hrun hm').2 with hsame | hnone
    · cases hsame
      exact hacc.append
    · cases hnone
  · obtain rfl := hstarted.unique ⟨t, ht, hrun⟩
    exact Accounted.refl _

theorem Feed.Sound.life {fuel : Nat} {tr : Trace host} {o : Outcome (Except Fault Unit)}
    {m : Option String} {c : String} (h : f.Sound log K volumeId)
    (hrun : Runs (spawnVolumeEventLoop K volumeId fuel).run tr o) (hstore : Provides f.stored tr m)
    (hlog : EachPage log.Honest K volumeId tr)
    (hfirst : f.first = some c ∨ (f.first = none ∧ Started K volumeId tr c)) :
    ∃ p, m = some p ∧ Accounted log K volumeId (f.seen ++ tr) (log.place c) (log.place p) := by
  refine life_accounted hrun hstore hlog (fun t c' ht hr => h.start hstore hfirst ht hr) ?_
  rcases hfirst with hfirst | ⟨_, hstarted⟩
  · exact .inl (h c hfirst)
  · exact .inr ⟨c, hstarted⟩

theorem Lives.sound (h : Lives K volumeId s f) (hlog : EachPage log.Honest K volumeId f.seen) :
    f.Sound log K volumeId := by
  induction h with
  | new => exact nofun
  | idle hf hrun hstore hidle ih =>
    obtain ⟨hlog₁, hlog₂⟩ := EachPage.append_iff.mp hlog
    intro c hfirst
    exact (ih hlog₁).life hrun hstore hlog₂ (.inl hfirst)
  | @started f fuel tr o m c hf hrun hstore hstarted ih =>
    obtain ⟨hlog₁, hlog₂⟩ := EachPage.append_iff.mp hlog
    intro c₀ hfirst
    refine (ih hlog₁).life hrun hstore hlog₂ ?_
    change some (f.first.getD c) = some c₀ at hfirst
    cases hf : f.first with
    | none =>
      rw [hf] at hfirst
      cases hfirst
      exact .inr ⟨rfl, hstarted⟩
    | some c₁ =>
      rw [hf] at hfirst
      cases hfirst
      exact .inl rfl

/-- at every moment of the life `tr` after the lives of `f`, every event after the first start cursor
and up to the stored cursor, or up to the cursor of the loop, was passed on or is made up for; and a
drain passes the events on in the order of the log -/
theorem no_event_lost {fuel : Nat} {tr : Trace host} {o : Outcome (Except Fault Unit)}
    {m : Option String} {c : String} (hlives : Lives K volumeId s f)
    (hrun : Runs (spawnVolumeEventLoop K volumeId fuel).run tr o) (hstore : Provides f.stored tr m)
    (hlog : EachPage log.Honest K volumeId (f.seen ++ tr))
    (hfirst : f.first = some c ∨ (f.first = none ∧ Started K volumeId tr c)) :
    (∃ p, m = some p ∧ Accounted log K volumeId (f.seen ++ tr) (log.place c) (log.place p)) ∧
      (∀ c', HoldsCursor K volumeId tr c' →
        Accounted log K volumeId (f.seen ++ tr) (log.place c) (log.place c')) ∧
      ∀ fuel cursor t o, t <:+: tr → Runs (drainVolumeEvents K volumeId fuel cursor).run t o →
        passed log volumeId t <+: (log.dispatches volumeId).drop (log.place cursor) := by
  obtain ⟨hlog₁, hlog₂⟩ := EachPage.append_iff.mp hlog
  have hsound := hlives.sound hlog₁
  refine ⟨hsound.life hrun hstore hlog₂ hfirst, ?_, ?_⟩
  · intro c' hholds
    cases hholds with
    | @unchanged tr' _ retry t _ hat hlast _ =>
      obtain ⟨m', hm', _⟩ := hstore.append_inv
      have hacc := (hat.accounted (H := f.seen) hm' (EachPage.append_iff.mp hlog₂).1
        fun t c' ht hr => hsound.start hstore hfirst (ht.trans (List.prefix_append _ _)) hr).1
      rw [← List.append_assoc]
      exact hacc.append
    | @drained tr' cursor retry fuel t r hat hdrain =>
      obtain ⟨m', hm', _⟩ := hstore.append_inv
      obtain ⟨hlog₃, hlog₄⟩ := EachPage.append_iff.mp hlog₂
      have hacc := (hat.accounted (H := f.seen) hm' hlog₃
        fun t c' ht hr => hsound.start hstore hfirst (ht.trans (List.prefix_append _ _)) hr).1
      have hdue : Accounted log K volumeId (f.seen ++ tr' ++ due retry) (log.place c)
          (log.place cursor) := hacc.append
      have hall := hdue.drain hdrain (EachPage.append_iff.mp hlog₄).2
      simpa only [List.append_assoc] using hall
  · intro fuel cursor t o ht hdrain
    obtain ⟨pre, post, rfl⟩ := ht
    exact (drain_passes hdrain
      (EachPage.append_iff.mp (EachPage.append_iff.mp hlog₂).1).2 0).1

end

/-! ## a small feed -/

def smallEntry (eventId : String) (eventType : Nat) (linkId : String) : Events.VolumeEventEntry :=
  { eventId, eventType, link := { linkId, parentLinkId := none, isShared := false, isTrashed := false } }

/-- two events, in a page each -/
def smallLog : EventLog where
  events := [smallEntry "1" 1 "a", smallEntry "2" 3 "b"]
  place c := if c = "1" then 1 else if c = "2" then 2 else 0

def firstPage : Events.GetVolumeEventsResponse :=
  { eventId := "1", events := [smallEntry "1" 1 "a"], more := true, refresh := false }

def secondPage : Events.GetVolumeEventsResponse :=
  { eventId := "2", events := [smallEntry "2" 3 "b"], more := false, refresh := false }

def pageDoc (page : Events.GetVolumeEventsResponse) : Json :=
  .obj [("Code", .num 1000), ("EventID", .str page.eventId),
    ("Events", .arr (page.events.map fun entry => .obj [("EventID", .str entry.eventId),
      ("EventType", .num entry.eventType), ("Link", .obj [("LinkID", .str entry.link.linkId)])])),
    ("More", .bool page.more), ("Refresh", .bool page.refresh)]

def pageResponse (page : Events.GetVolumeEventsResponse) : JsonResponse :=
  { status := 200, headers := [], body := textOf (pageDoc page) }

def feedCrates : Crates := smallCrates [pageDoc firstPage, pageDoc secondPage]

theorem feedDocs_nodup : ([pageDoc firstPage, pageDoc secondPage].map textOf).Nodup := by
  decide +kernel

theorem firstPage_read : feedCrates.Envelopes Events.GetVolumeEventsResponse.ofJson
    (pageResponse firstPage).body firstPage :=
  smallCrates_envelopes feedDocs_nodup List.mem_cons_self rfl

theorem secondPage_read : feedCrates.Envelopes Events.GetVolumeEventsResponse.ofJson
    (pageResponse secondPage).body secondPage :=
  smallCrates_envelopes feedDocs_nodup (List.mem_cons_of_mem _ List.mem_cons_self) rfl

/-- the request for the page after `c` and its answer -/
def asked (c : String) (page : Events.GetVolumeEventsResponse) : Event host :=
  ⟨.requestJson (eventsGet "v" c), .ok (pageResponse page)⟩

/-- the two pages, one after the other -/
def drainedTrace : Trace host :=
  asked "0" firstPage :: (told "v" firstPage.events ++ asked "1" secondPage :: told "v" secondPage.events)

theorem drainedTrace_runs (fuel : Nat) :
    Runs (drainVolumeEvents feedCrates "v" (fuel + 2) "0").run drainedTrace
      (.done (.ok { cursor := "2", refreshed := false })) :=
  drain_page firstPage_read (drainPage_more rfl (List.cons_ne_nil _ _) rfl (by decide)
    (drain_page secondPage_read (drainPage_last rfl (List.cons_ne_nil _ _) rfl)))

theorem drainedTrace_splits : EachPage smallLog.Splits feedCrates "v" drainedTrace :=
  .page firstPage_read ⟨by decide, .inr rfl⟩ (.other nofun
    (.page secondPage_read ⟨by decide, .inr rfl⟩ (.other nofun .nil)))

/-- a life on a provider that holds "0", up to the last call of its first tick -/
def firstLife (t : Trace host) : Trace host := [⟨.providerGet, .ok (some "0")⟩] ++ (due 0 ++ t)

theorem firstLife_splits {t : Trace host} (h : EachPage smallLog.Splits feedCrates "v" t) :
    EachPage smallLog.Splits feedCrates "v" (firstLife t) :=
  .other nofun (.other nofun (.other nofun h))

/-- the first of the two pages -/
def firstDrained : Trace host := asked "0" firstPage :: told "v" firstPage.events

theorem firstDrained_runs (fuel : Nat) :
    Runs (drainVolumeEvents feedCrates "v" (fuel + 2) "0").run firstDrained .running :=
  (drainedTrace_runs fuel).take firstDrained

theorem firstDrained_splits : EachPage smallLog.Splits feedCrates "v" firstDrained :=
  .page firstPage_read ⟨by decide, .inr rfl⟩ (.other nofun .nil)

/-- a life that ends after the first event of a drain -/
def crashedLife : Trace host := firstLife firstDrained

theorem crashedLife_runs : Runs (spawnVolumeEventLoop feedCrates "v" 3).run crashedLife .running :=
  spawn_started resolve_stored (eventLoop_draining (firstDrained_runs 0))

/-- a life that persists the cursor of its first drain -/
def resumedLife : Trace host := firstLife (drainedTrace ++ [⟨.providerSet "2", .ok ()⟩])

theorem resumedLife_runs : Runs (spawnVolumeEventLoop feedCrates "v" 3).run resumedLife .running :=
  spawn_started resolve_stored (eventLoop_drained (drainedTrace_runs 0) (.stop _))

/-- after the crash and the second life both events are accounted for -/
theorem resumedLife_delivers :
    Accounted smallLog feedCrates "v" (crashedLife ++ resumedLife) 0 2 := by
  have hcrashed : Provides (some "0") crashedLife (some "0") :=
    .got (.other rfl (.other rfl (.other rfl (.other rfl (.nil _)))))
  have hresumed : Provides (some "0") resumedLife (some "2") :=
    .got (.other rfl (.other rfl (.other rfl (.other rfl (.other rfl (.other rfl (.set (.nil _))))))))
  have hlives := Lives.started (.new (s := some "0")) crashedLife_runs hcrashed
    ⟨[⟨.providerGet, .ok (some "0")⟩], ⟨_, rfl⟩, resolve_stored⟩
  have hsplits : EachPage smallLog.Splits feedCrates "v" ([] ++ crashedLife ++ resumedLife) :=
    EachPage.append_iff.mpr ⟨firstLife_splits firstDrained_splits,
      firstLife_splits (EachPage.append_iff.mpr ⟨drainedTrace_splits, .other nofun .nil⟩)⟩
  have hhonest := hsplits.mono fun _ _ => EventLog.Splits.honest
  obtain ⟨⟨p, hp, hacc⟩, _⟩ := no_event_lost hlives resumedLife_runs hresumed hhonest (.inl rfl)
  cases hp
  exact hacc

end ProtonDrive
