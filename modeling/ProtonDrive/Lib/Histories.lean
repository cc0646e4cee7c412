import ProtonDrive.Lib.Prog
import Mathlib.Data.List.Induction

/-!
# Programs that run one after the other

* `Reachable init step C s h`
                     the state `s` is reached by running `init`, and then programs `step i` from the
                     state the last one has left; `h` is what they did, and each of them meets `C`;
* `Reachable.invariant`
                     what the start gives and every step preserves holds of every state reached;
* `play serve ok init step is`
                     the state that the steps `is` lead to in a computing environment, if each step is
                     `ok`;
* `latest f h`       what the last event of `h` that `f` knows something of says;
* `since f h`        the same, with what was done after this event;
* `AllAfter P h`     every call was allowed by what was done before it.
-/

set_option linter.unusedVariables false

namespace Effects

variable {S : Sig} {σ ι β : Type}

/-! ## systems -/

inductive Reachable (init : Prog S σ) (step : ι → σ → Prog S σ) (C : ι → σ → Trace S → Prop) :
    σ → Trace S → Prop
  | init {s h} (hrun : Runs init h (.done s)) : Reachable init step C s h
  | step {s s' h t} (i : ι) (hs : Reachable init step C s h) (hrun : Runs (step i s) t (.done s'))
      (hC : C i s t) : Reachable init step C s' (h ++ t)

section
variable {init : Prog S σ} {step : ι → σ → Prog S σ} {C C' : ι → σ → Trace S → Prop} {s : σ}
  {h : Trace S}

theorem Reachable.invariant {I : Trace S → σ → Prop} (hs : Reachable init step C s h)
    (hinit : ∀ s h, Runs init h (.done s) → I h s)
    (hstep : ∀ i s s' h t, I h s → Runs (step i s) t (.done s') → C i s t → I (h ++ t) s') :
    I h s := by
  induction hs with
  | init hrun => exact hinit _ _ hrun
  | step i _ hrun hC ih => exact hstep i _ _ _ _ ih hrun hC

theorem Reachable.mono (hs : Reachable init step C s h) (hC : ∀ i s t, C i s t → C' i s t) :
    Reachable init step C' s h := by
  induction hs with
  | init hrun => exact .init hrun
  | step i _ hrun hcond ih => exact .step i ih hrun (hC _ _ _ hcond)

end

/-- one more step in the environment `serve` -/
def playOn (serve : Trace S → (c : S.Call) → S.Ans c) (ok : ι → σ → Trace S → Bool)
    (step : ι → σ → Prog S σ) (x : σ × Trace S) (i : ι) : Option (σ × Trace S) :=
  if ok i x.1 (exec serve x.2 (step i x.1)).1 then
    (exec serve x.2 (step i x.1)).2.map fun s => (s, x.2 ++ (exec serve x.2 (step i x.1)).1)
  else none

def play (serve : Trace S → (c : S.Call) → S.Ans c) (ok : ι → σ → Trace S → Bool) (init : Prog S σ)
    (step : ι → σ → Prog S σ) (is : List ι) : Option (σ × Trace S) :=
  is.foldl (fun x i => x.bind fun x => playOn serve ok step x i)
    ((exec serve [] init).2.map fun s => (s, (exec serve [] init).1))

theorem play_reachable {serve : Trace S → (c : S.Call) → S.Ans c} {ok : ι → σ → Trace S → Bool}
    {init : Prog S σ} {step : ι → σ → Prog S σ} {is : List ι} {s : σ} {h : Trace S}
    (hplay : play serve ok init step is = some (s, h)) :
    Reachable init step (fun i s t => ok i s t = true) s h := by
  induction is using List.reverseRecOn generalizing s h with
  | nil =>
    obtain ⟨s', hs, heq⟩ := Option.map_eq_some_iff.mp hplay
    cases heq
    exact .init (exec_runs serve [] init s hs)
  | append_singleton is i ih =>
    unfold play at hplay ih
    rw [List.foldl_concat] at hplay
    obtain ⟨x, hx, hstep⟩ := Option.bind_eq_some_iff.mp hplay
    by_cases hok : ok i x.1 (exec serve x.2 (step i x.1)).1 = true
    · rw [playOn, if_pos hok] at hstep
      obtain ⟨s', hs, heq⟩ := Option.map_eq_some_iff.mp hstep
      cases heq
      exact .step i (ih hx) (exec_runs serve x.2 _ _ hs) hok
    · rw [playOn, if_neg hok] at hstep
      cases hstep

/-! ## what a history says -/

section
variable {h h' : Trace S} {e : Event S}

def latest (f : Event S → Option β) (h : Trace S) : Option β := h.foldl (fun last e => (f e).or last) none

theorem latest_concat (f : Event S → Option β) (h : Trace S) (e : Event S) :
    latest f (h ++ [e]) = (f e).or (latest f h) := List.foldl_concat _ _ _ _

/-- events that say nothing change nothing -/
theorem latest_append_none {f : Event S → Option β} {t : Trace S} (ht : ∀ e ∈ t, f e = none) :
    latest f (h ++ t) = latest f h := by
  induction t generalizing h with
  | nil => rw [List.append_nil]
  | cons e t ih =>
    rw [List.append_cons, ih fun e' he' => ht e' (List.mem_cons_of_mem _ he'), latest_concat,
      ht e List.mem_cons_self, Option.none_or]

/-- `none` if `f` knows nothing of any event -/
def since (f : Event S → Option β) (h : Trace S) : Option (β × Trace S) :=
  h.foldl (fun last e => ((f e).map fun b => (b, [])).or (last.map fun x => (x.1, x.2 ++ [e]))) none

theorem since_concat (f : Event S → Option β) (h : Trace S) (e : Event S) :
    since f (h ++ [e]) =
      ((f e).map fun b => (b, [])).or ((since f h).map fun x => (x.1, x.2 ++ [e])) :=
  List.foldl_concat _ _ _ _

theorem since_append (f : Event S → Option β) (h t : Trace S) :
    since f (h ++ t) = (since f t).or ((since f h).map fun x => (x.1, x.2 ++ t)) := by
  induction t using List.reverseRecOn with
  | nil =>
    rw [List.append_nil]
    show since f h = (since f h).map fun x => (x.1, x.2 ++ [])
    simp
  | append_singleton t e ih =>
    rw [← List.append_assoc, since_concat, since_concat, ih]
    cases f e with
    | some b => rfl
    | none => cases since f t <;> simp [Function.comp_def]

theorem since_eq_none {f : Event S → Option β} {t : Trace S} (ht : ∀ e ∈ t, f e = none) :
    since f t = none := by
  induction t using List.reverseRecOn with
  | nil => rfl
  | append_singleton t e ih =>
    rw [since_concat, ih fun e' he' => ht e' (List.mem_append_left _ he'),
      ht e List.mem_concat_self]
    rfl

/-- events that `f` knows nothing of -/
theorem since_append_none {f : Event S → Option β} {t : Trace S} (ht : ∀ e ∈ t, f e = none) :
    since f (h ++ t) = (since f h).map fun x => (x.1, x.2 ++ t) := by
  rw [since_append, since_eq_none ht]
  rfl

/-- the last event that `f` knows something of -/
theorem since_cons_append {f : Event S → Option β} {t : Trace S} {b : β} (he : f e = some b)
    (ht : ∀ e ∈ t, f e = none) : since f (h ++ e :: t) = some (b, t) := by
  rw [List.append_cons, since_append_none ht, since_concat, he]
  rfl

def AllAfter (P : Trace S → S.Call → Prop) (h : Trace S) : Prop :=
  ∀ before e after, h = before ++ e :: after → P before e.call

theorem AllAfter.concat {P : Trace S → S.Call → Prop} (hall : AllAfter P h) (he : P h e.call) :
    AllAfter P (h ++ [e]) := by
  intro before e' after heq
  rcases List.eq_nil_or_concat' after with rfl | ⟨rest, x, rfl⟩
  · obtain ⟨rfl, hlast⟩ := List.append_inj' heq rfl
    cases hlast
    exact he
  · rw [← List.cons_append, ← List.append_assoc] at heq
    obtain ⟨hinit, _⟩ := List.append_inj' heq rfl
    exact hall before e' rest hinit

/-- calls that are always allowed -/
theorem AllAfter.append {P : Trace S → S.Call → Prop} {t : Trace S} (hall : AllAfter P h)
    (ht : ∀ e ∈ t, ∀ h, P h e.call) : AllAfter P (h ++ t) := by
  induction t generalizing h with
  | nil =>
    rw [List.append_nil]
    exact hall
  | cons e t ih =>
    rw [List.append_cons]
    exact ih (hall.concat (ht e List.mem_cons_self h)) fun e' he' =>
      ht e' (List.mem_cons_of_mem _ he')

end

end Effects
