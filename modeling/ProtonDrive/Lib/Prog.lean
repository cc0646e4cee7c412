import Mathlib.Tactic.Common
import Mathlib.Data.List.Basic

/-!
# Effectful programs as trees of calls, and their runs

A program over a signature `S` of effects is a tree: it returns a value, or makes a call and goes
on with a program that depends on the answer.  Nothing is said about who answers, so one tree
stands for the program in every environment.

* `Prog S α`          the trees; `cut` ends an unrolled loop whose fuel is used up;
* `Runs p tr o`       `p` can be seen to make the calls and get the answers of the trace `tr`,
                      and then it has returned (`done`), is still at work (`running`) or has
                      reached a `cut`;
* `Runs.bind_inv`     a run of `p >>= f` is a run of `p` followed by a run of `f a`, or `p` did
                      not return; `Runs.bindE_inv`, `Runs.bindE_ok` are the same with exceptions;
* `Runs.bind_after`   once `p` has returned, the rest of the run is one of `f a`;
* `Only A p`          every call `p` can ever make satisfies `A`; `Runs.reach` says where in a
                      sequence of programs a call comes from;
* `Within A Q p`      every call of `p` satisfies `A`, and every exception it can end with `Q`;
* `CutFree p`         `p` reaches no `cut`;
* `AtMost p n`        `p` makes at most `n` calls, whatever the answers, and then it has returned;
* `p.handle h`        `p` with each call carried out by a program of another signature; `Only.handle`
                      says what calls it then makes;
* `exec serve h p`    the run of `p` against an environment that computes its answers from the
                      history; `Yields` says that it returns a value, and composes.

A property of all prefixes of all runs is a property of all `tr` with `Runs p tr o`, because
`running` may be observed at any point (`Runs.take`).
-/

set_option linter.unusedSectionVars false
set_option linter.unusedVariables false

namespace Effects

/-- the calls a program can make, and the type of the answers to each -/
structure Sig where
  Call : Type
  Ans : Call → Type

/-- one call together with its answer -/
structure Event (S : Sig) where
  call : S.Call
  ans : S.Ans call

abbrev Trace (S : Sig) := List (Event S)

inductive Prog (S : Sig) (α : Type) : Type where
  | ret (a : α)
  | call (c : S.Call) (k : S.Ans c → Prog S α)
  | cut

/-- what is known of a program after a trace -/
inductive Outcome (α : Type) where
  | done (a : α)
  | running
  | cut

section
variable {S : Sig} {α β γ ε : Type}

namespace Prog

def bind : Prog S α → (α → Prog S β) → Prog S β
  | .ret a, f => f a
  | .call c k, f => .call c fun a => bind (k a) f
  | .cut, _ => .cut

instance : Monad (Prog S) where
  pure := Prog.ret
  bind := Prog.bind

/-- make one call and return its answer -/
def perform (c : S.Call) : Prog S (S.Ans c) := .call c .ret

theorem bind_ret (p : Prog S α) : p.bind .ret = p := by
  induction p with
  | ret a => rfl
  | call c k ih => exact congrArg (Prog.call c) (funext ih)
  | cut => rfl

theorem bind_assoc (p : Prog S α) (f : α → Prog S β) (g : β → Prog S γ) :
    (p.bind f).bind g = p.bind fun a => (f a).bind g := by
  induction p with
  | ret a => rfl
  | call c k ih => exact congrArg (Prog.call c) (funext ih)
  | cut => rfl

instance : LawfulMonad (Prog S) :=
  LawfulMonad.mk' (Prog S) bind_ret (fun _ _ => rfl) bind_assoc

end Prog

/-! ## runs -/

inductive Runs : Prog S α → Trace S → Outcome α → Prop
  | stop (p : Prog S α) : Runs p [] .running
  | ret (a : α) : Runs (.ret a) [] (.done a)
  | cut : Runs .cut [] .cut
  | call {c : S.Call} {k : S.Ans c → Prog S α} {a : S.Ans c} {tr : Trace S} {o : Outcome α}
      (h : Runs (k a) tr o) : Runs (.call c k) (⟨c, a⟩ :: tr) o

theorem Runs.ret_inv {a : α} {tr : Trace S} {o : Outcome α} (h : Runs (.ret a) tr o) :
    tr = [] ∧ (o = .done a ∨ o = .running) := by
  cases h with
  | stop => exact ⟨rfl, .inr rfl⟩
  | ret => exact ⟨rfl, .inl rfl⟩

theorem Runs.call_inv {c : S.Call} {k : S.Ans c → Prog S α} {tr : Trace S} {o : Outcome α}
    (h : Runs (.call c k) tr o) :
    (tr = [] ∧ o = .running) ∨ ∃ a tr', tr = ⟨c, a⟩ :: tr' ∧ Runs (k a) tr' o := by
  cases h with
  | stop => exact .inl ⟨rfl, rfl⟩
  | call h => exact .inr ⟨_, _, rfl, h⟩

/-- a run can be observed at any earlier point -/
theorem Runs.take {p : Prog S α} (pre : Trace S) {post : Trace S} {o : Outcome α}
    (h : Runs p (pre ++ post) o) : Runs p pre .running := by
  induction pre generalizing p with
  | nil => exact .stop p
  | cons e pre ih =>
    cases h with
    | call h => exact .call (ih h)

theorem Runs.bind {p : Prog S α} {f : α → Prog S β} {tr₁ tr₂ : Trace S} {a : α}
    {o : Outcome β} (hp : Runs p tr₁ (.done a)) (hf : Runs (f a) tr₂ o) :
    Runs (p >>= f) (tr₁ ++ tr₂) o := by
  generalize ho : Outcome.done a = o₁ at hp
  induction hp with
  | stop => cases ho
  | ret a' => cases ho; exact hf
  | cut => cases ho
  | call _ ih => exact .call (ih ho)

theorem Runs.bind_running {p : Prog S α} {f : α → Prog S β} {tr : Trace S} (h : Runs p tr .running) :
    Runs (p >>= f) tr .running := by
  generalize ho : (Outcome.running : Outcome α) = o at h
  induction h with
  | stop p => exact .stop _
  | ret a => cases ho
  | cut => cases ho
  | call _ ih => exact .call (ih ho)

/-- the outcome of a program whose first part did not return -/
def Outcome.Unfinished : Outcome α → Outcome β → Prop
  | .running, .running => True
  | .cut, .cut => True
  | _, _ => False

theorem Outcome.Unfinished.eq {o₁ : Outcome α} {o : Outcome β} (h : Outcome.Unfinished o₁ o) :
    (o₁ = .running ∧ o = .running) ∨ (o₁ = .cut ∧ o = .cut) := by
  cases o₁ with
  | done a => exact False.elim h
  | running =>
    cases o with
    | running => exact .inl ⟨rfl, rfl⟩
    | _ => exact False.elim h
  | cut =>
    cases o with
    | cut => exact .inr ⟨rfl, rfl⟩
    | _ => exact False.elim h

theorem Runs.bind_inv {p : Prog S α} {f : α → Prog S β} {tr : Trace S} {o : Outcome β}
    (h : Runs (p >>= f) tr o) :
    (∃ a tr₁ tr₂, tr = tr₁ ++ tr₂ ∧ Runs p tr₁ (.done a) ∧ Runs (f a) tr₂ o) ∨
      ∃ o₁, Outcome.Unfinished o₁ o ∧ Runs p tr o₁ := by
  induction p generalizing tr with
  | ret a => exact .inl ⟨a, [], tr, rfl, .ret a, h⟩
  | call c k ih =>
    rcases Runs.call_inv h with ⟨rfl, rfl⟩ | ⟨a, tr', rfl, h'⟩
    · exact .inr ⟨.running, trivial, .stop _⟩
    · rcases ih a h' with ⟨b, t₁, t₂, rfl, h₁, h₂⟩ | ⟨o₁, ho, h₁⟩
      · exact .inl ⟨b, ⟨c, a⟩ :: t₁, t₂, rfl, .call h₁, h₂⟩
      · exact .inr ⟨o₁, ho, .call h₁⟩
  | cut =>
    cases h with
    | stop => exact .inr ⟨.running, trivial, .stop _⟩
    | cut => exact .inr ⟨.cut, trivial, .cut⟩

theorem Runs.bind_done {p : Prog S α} {f : α → Prog S β} {tr : Trace S} {b : β}
    (h : Runs (p >>= f) tr (.done b)) :
    ∃ a tr₁ tr₂, tr = tr₁ ++ tr₂ ∧ Runs p tr₁ (.done a) ∧ Runs (f a) tr₂ (.done b) := by
  rcases h.bind_inv with h | ⟨o₁, ho, _⟩
  · exact h
  · cases o₁ <;> exact False.elim ho

/-- once the first part has returned, the rest of the run is one of the second part -/
theorem Runs.bind_after {p : Prog S α} {f : α → Prog S β} {tr₁ tr₂ : Trace S} {a : α} {o : Outcome β}
    (hp : Runs p tr₁ (.done a)) (h : Runs (p >>= f) (tr₁ ++ tr₂) o) : Runs (f a) tr₂ o := by
  generalize ho : Outcome.done a = o₁ at hp
  induction hp with
  | stop => cases ho
  | ret a' =>
    cases ho
    exact h
  | cut => cases ho
  | call _ ih =>
    cases h with
    | call h => exact ih h ho

/-- a program that has returned makes no further call -/
theorem Runs.done_final {p : Prog S α} {tr tr' : Trace S} {a : α} {o : Outcome α} {e : Event S}
    (h : Runs p tr (.done a)) : ¬ Runs p (tr ++ e :: tr') o := by
  generalize ho : Outcome.done a = o₁ at h
  induction h with
  | stop => cases ho
  | ret => intro h'; cases h'
  | cut => cases ho
  | call _ ih =>
    intro h'
    cases h' with
    | call h' => exact ih ho h'

/-- what a program returns is determined by the answers it got -/
theorem Runs.done_unique {p : Prog S α} {tr : Trace S} {a b : α} (h : Runs p tr (.done a))
    (h' : Runs p tr (.done b)) : a = b := by
  generalize ho : Outcome.done a = o at h
  induction h with
  | stop => cases ho
  | ret =>
    cases ho
    cases h'
    rfl
  | cut => cases ho
  | call _ ih =>
    cases h' with
    | call h' => exact ih h' ho

/-! ## runs of programs with exceptions -/

/-- the first part of a program did not return a value: what the whole program then shows -/
def Outcome.Aborts : Outcome (Except ε α) → Outcome (Except ε β) → Prop
  | .done (.error e), .done (.error e') => e = e'
  | .running, .running => True
  | .cut, .cut => True
  | _, _ => False

theorem Outcome.Aborts.not_ok {o : Outcome (Except ε α)} {b : β} :
    ¬ Outcome.Aborts o (.done (.ok b)) := by
  intro h
  match o with
  | .done (.error _) => exact h
  | .done (.ok _) => exact h
  | .running => exact h
  | .cut => exact h

theorem Outcome.Aborts.src_not_ok {o : Outcome (Except ε β)} {a : α} :
    ¬ Outcome.Aborts (.done (.ok a)) o := id

theorem Outcome.Aborts.error {o : Outcome (Except ε α)} {e : ε}
    (h : Outcome.Aborts (β := β) o (.done (.error e))) : o = .done (.error e) := by
  match o, h with
  | .done (.error _), h => exact congrArg (fun e => Outcome.done (Except.error e)) h

theorem Outcome.Aborts.cut {o : Outcome (Except ε α)}
    (h : Outcome.Aborts (β := β) o .cut) : o = .cut := by
  match o, h with
  | .cut, _ => rfl

theorem Outcome.Aborts.of_error {o : Outcome (Except ε β)} {e : ε}
    (h : Outcome.Aborts (α := α) (.done (.error e)) o) : o = .done (.error e) := by
  match o, h with
  | .done (.error _), h => exact congrArg (fun e => Outcome.done (Except.error e)) (Eq.symm h)

theorem Outcome.Aborts.of_running {o : Outcome (Except ε β)}
    (h : Outcome.Aborts (α := α) .running o) : o = .running := by
  match o, h with
  | .running, _ => rfl

theorem Outcome.Aborts.of_cut {o : Outcome (Except ε β)}
    (h : Outcome.Aborts (α := α) .cut o) : o = .cut := by
  match o, h with
  | .cut, _ => rfl

theorem Runs.bindE_inv {p : ExceptT ε (Prog S) α} {f : α → ExceptT ε (Prog S) β} {tr : Trace S}
    {o : Outcome (Except ε β)} (h : Runs (p >>= f).run tr o) :
    (∃ a tr₁ tr₂, tr = tr₁ ++ tr₂ ∧ Runs p.run tr₁ (.done (.ok a)) ∧ Runs (f a).run tr₂ o) ∨
      ∃ o₁, Outcome.Aborts o₁ o ∧ Runs p.run tr o₁ := by
  rw [ExceptT.run_bind] at h
  rcases h.bind_inv with ⟨r, tr₁, tr₂, rfl, h₁, h₂⟩ | ⟨o₁, ho, h₁⟩
  · cases r with
    | ok a => exact .inl ⟨a, tr₁, tr₂, rfl, h₁, h₂⟩
    | error e =>
      have h' : Runs p.run (tr₁ ++ []) (.done (.error e)) := by
        rw [List.append_nil]
        exact h₁
      obtain ⟨rfl, rfl | rfl⟩ := Runs.ret_inv h₂
      · exact .inr ⟨.done (.error e), rfl, h'⟩
      · rw [List.append_nil]
        exact .inr ⟨.running, trivial, h'.take tr₁⟩
  · refine .inr ⟨o₁, ?_, h₁⟩
    match o₁, o, ho with
    | .running, .running, _ => trivial
    | .cut, .cut, _ => trivial

theorem Runs.bindE_ok {p : ExceptT ε (Prog S) α} {f : α → ExceptT ε (Prog S) β} {tr : Trace S}
    {b : β} (h : Runs (p >>= f).run tr (.done (.ok b))) :
    ∃ a tr₁ tr₂, tr = tr₁ ++ tr₂ ∧ Runs p.run tr₁ (.done (.ok a)) ∧
      Runs (f a).run tr₂ (.done (.ok b)) := by
  rcases h.bindE_inv with h | ⟨o₁, ho, _⟩
  · exact h
  · exact False.elim ho.not_ok

theorem Runs.bindE_error {p : ExceptT ε (Prog S) α} {f : α → ExceptT ε (Prog S) β}
    {tr : Trace S} {e : ε} (h : Runs (p >>= f).run tr (.done (.error e))) :
    (∃ a tr₁ tr₂, tr = tr₁ ++ tr₂ ∧ Runs p.run tr₁ (.done (.ok a)) ∧
      Runs (f a).run tr₂ (.done (.error e))) ∨ Runs p.run tr (.done (.error e)) := by
  rcases h.bindE_inv with h | ⟨o₁, ho, h₁⟩
  · exact .inl h
  · rw [ho.error] at h₁
    exact .inr h₁

theorem Runs.bindE {p : ExceptT ε (Prog S) α} {f : α → ExceptT ε (Prog S) β}
    {tr₁ tr₂ : Trace S} {a : α} {o : Outcome (Except ε β)}
    (hp : Runs p.run tr₁ (.done (.ok a))) (hf : Runs (f a).run tr₂ o) :
    Runs (p >>= f).run (tr₁ ++ tr₂) o := by
  rw [ExceptT.run_bind]
  exact Runs.bind hp hf

theorem Runs.bindE_after {p : ExceptT ε (Prog S) α} {f : α → ExceptT ε (Prog S) β}
    {tr₁ tr₂ : Trace S} {a : α} {o : Outcome (Except ε β)} (hp : Runs p.run tr₁ (.done (.ok a)))
    (h : Runs (p >>= f).run (tr₁ ++ tr₂) o) : Runs (f a).run tr₂ o := by
  rw [ExceptT.run_bind] at h
  have hrest := Runs.bind_after hp h
  exact hrest

/-- a first part that fails is the whole run -/
theorem Runs.bindE_fails {p : ExceptT ε (Prog S) α} {f : α → ExceptT ε (Prog S) β} {tr : Trace S}
    {e : ε} (hp : Runs p.run tr (.done (.error e))) : Runs (p >>= f).run tr (.done (.error e)) := by
  rw [ExceptT.run_bind, ← List.append_nil tr]
  exact Runs.bind hp (.ret _)

theorem Runs.bindE_none {p : ExceptT ε (Prog S) α} {f : α → ExceptT ε (Prog S) β} {tr : Trace S}
    {a : α} {o : Outcome (Except ε β)} (hp : Runs p.run [] (.done (.ok a)))
    (hf : Runs (f a).run tr o) : Runs (p >>= f).run tr o := Runs.bindE hp hf

theorem Runs.bindE_one {p : ExceptT ε (Prog S) α} {f : α → ExceptT ε (Prog S) β} {e : Event S}
    {tr : Trace S} {a : α} {o : Outcome (Except ε β)} (hp : Runs p.run [e] (.done (.ok a)))
    (hf : Runs (f a).run tr o) : Runs (p >>= f).run (e :: tr) o := Runs.bindE hp hf

/-- a first part that makes no call -/
theorem Runs.bindE_nil {p : ExceptT ε (Prog S) α} {f : α → ExceptT ε (Prog S) β} {tr : Trace S} {a : α}
    {o : Outcome (Except ε β)} (hp : Runs p.run [] (.done (.ok a))) (hf : Runs (f a).run tr o) :
    Runs (p >>= f).run tr o := Runs.bindE hp hf

/-- a program whose exceptions are renamed returns what it returned -/
theorem Runs.adapt_ok {ε' : Type} {f : ε → ε'} {p : ExceptT ε (Prog S) α} {tr : Trace S} {a : α} :
    Runs (ExceptT.adapt f p).run tr (.done (.ok a)) ↔ Runs p.run tr (.done (.ok a)) := by
  have hrun : (ExceptT.adapt f p).run = p.run >>= fun r => pure (r.mapError f) :=
    map_eq_pure_bind _ _
  rw [hrun]
  constructor
  · intro h
    obtain ⟨r, tr₁, tr₂, rfl, h₁, h₂⟩ := h.bind_done
    obtain ⟨rfl, h₂ | h₂⟩ := Runs.ret_inv h₂
    · cases r with
      | ok b =>
        cases h₂
        rw [List.append_nil]
        exact h₁
      | error e => cases h₂
    · cases h₂
  · intro h
    rw [← List.append_nil tr]
    exact Runs.bind h (.ret _)

/-- a program whose exceptions are renamed makes the same calls -/
theorem Runs.adapt_inv {ε' : Type} {f : ε → ε'} {p : ExceptT ε (Prog S) α} {tr : Trace S}
    {o : Outcome (Except ε' α)} (h : Runs (ExceptT.adapt f p).run tr o) :
    Runs p.run tr .running ∧ ∀ r, o = .done r → ∃ r', Runs p.run tr (.done r') := by
  have hrun : (ExceptT.adapt f p).run = p.run >>= fun r => pure (r.mapError f) :=
    map_eq_pure_bind _ _
  rw [hrun] at h
  rcases h.bind_inv with ⟨r', tr₁, tr₂, rfl, h₁, h₂⟩ | ⟨o₁, ho, h₁⟩
  · obtain ⟨rfl, _⟩ := Runs.ret_inv h₂
    have hdone : Runs p.run (tr₁ ++ []) (.done r') := by
      rw [List.append_nil]
      exact h₁
    exact ⟨by rw [List.append_nil]; exact hdone.take tr₁, fun _ _ => ⟨r', hdone⟩⟩
  · have htake : Runs p.run tr .running := by
      rw [← List.append_nil tr] at h₁
      exact h₁.take tr
    refine ⟨htake, ?_⟩
    rintro r rfl
    rcases ho.eq with ⟨_, ho⟩ | ⟨_, ho⟩ <;> cases ho

/-! ## the calls of a program -/

/-- every call the program can make, whatever the answers, satisfies `A` -/
def Only (A : S.Call → Prop) : Prog S α → Prop
  | .ret _ => True
  | .call c k => A c ∧ ∀ a, Only A (k a)
  | .cut => True

theorem Only.bind {A : S.Call → Prop} {p : Prog S α} {f : α → Prog S β} (hp : Only A p)
    (hf : ∀ a, Only A (f a)) : Only A (p >>= f) := by
  induction p with
  | ret a => exact hf a
  | call c k ih => exact ⟨hp.1, fun a => ih a (hp.2 a)⟩
  | cut => trivial

theorem Only.bindE {A : S.Call → Prop} {p : ExceptT ε (Prog S) α}
    {f : α → ExceptT ε (Prog S) β} (hp : Only A p.run) (hf : ∀ a, Only A (f a).run) :
    Only A (p >>= f).run := by
  rw [ExceptT.run_bind]
  refine Only.bind hp fun r => ?_
  cases r with
  | ok a => exact hf a
  | error e => trivial

theorem Only.ite {A : S.Call → Prop} {c : Prop} [Decidable c] {p q : ExceptT ε (Prog S) α}
    (hp : c → Only A p.run) (hq : ¬ c → Only A q.run) : Only A (if c then p else q).run := by
  by_cases h : c
  · rw [if_pos h]
    exact hp h
  · rw [if_neg h]
    exact hq h

theorem Only.mono {A B : S.Call → Prop} (hAB : ∀ c, A c → B c) {p : Prog S α} (hp : Only A p) :
    Only B p := by
  induction p with
  | ret a => trivial
  | call c k ih => exact ⟨hAB c hp.1, fun a => ih a (hp.2 a)⟩
  | cut => trivial

theorem Runs.only {A : S.Call → Prop} {p : Prog S α} {tr : Trace S} {o : Outcome α}
    (h : Runs p tr o) (hp : Only A p) : ∀ e ∈ tr, A e.call := by
  induction h with
  | stop => intro e he; cases he
  | ret => intro e he; cases he
  | cut => intro e he; cases he
  | call _ ih =>
    intro e he
    rcases List.mem_cons.mp he with rfl | he
    · exact hp.1
    · exact ih (hp.2 _) e he

/-- a call the first part of a program cannot make was made by the second part -/
theorem Runs.reach {A : S.Call → Prop} {p : ExceptT ε (Prog S) α}
    {f : α → ExceptT ε (Prog S) β} {tr : Trace S} {o : Outcome (Except ε β)}
    (h : Runs (p >>= f).run tr o) (hp : Only A p.run) {e : Event S} (he : e ∈ tr)
    (hA : ¬ A e.call) :
    ∃ a tr₁ tr₂, tr = tr₁ ++ tr₂ ∧ Runs p.run tr₁ (.done (.ok a)) ∧ Runs (f a).run tr₂ o ∧
      e ∈ tr₂ := by
  rcases h.bindE_inv with ⟨a, tr₁, tr₂, rfl, h₁, h₂⟩ | ⟨o₁, _, h₁⟩
  · refine ⟨a, tr₁, tr₂, rfl, h₁, h₂, ?_⟩
    rcases List.mem_append.mp he with he | he
    · exact absurd (h₁.only hp e he) hA
    · exact he
  · exact absurd (h₁.only hp e he) hA

/-! ## handlers -/

/-- the calls of a program are carried out by programs of another signature -/
def Prog.handle {S' : Sig} (h : (c : S.Call) → Prog S' (S.Ans c)) : Prog S α → Prog S' α
  | .ret a => .ret a
  | .call c k => h c >>= fun a => Prog.handle h (k a)
  | .cut => .cut

theorem Only.handle {S' : Sig} {A : S'.Call → Prop} {B : S.Call → Prop}
    {h : (c : S.Call) → Prog S' (S.Ans c)} {p : Prog S α} (hp : Only B p)
    (hh : ∀ c, B c → Only A (h c)) : Only A (p.handle h) := by
  induction p with
  | ret a => trivial
  | call c k ih => exact Only.bind (hh c hp.1) fun a => ih a (hp.2 a)
  | cut => trivial

/-! ## the values a program returns -/

/-- every value the program can return, whatever the answers, satisfies `Q` -/
def Returns (Q : α → Prop) : Prog S α → Prop
  | .ret a => Q a
  | .call _ k => ∀ a, Returns Q (k a)
  | .cut => True

theorem Returns.bind {Q : α → Prop} {R : β → Prop} {p : Prog S α} {f : α → Prog S β}
    (hp : Returns Q p) (hf : ∀ a, Q a → Returns R (f a)) : Returns R (p >>= f) := by
  induction p with
  | ret a => exact hf a hp
  | call c k ih => exact fun a => ih a (hp a)
  | cut => trivial

theorem Runs.returns {Q : α → Prop} {p : Prog S α} {tr : Trace S} {a : α}
    (h : Runs p tr (.done a)) (hp : Returns Q p) : Q a := by
  generalize ho : Outcome.done a = o at h
  induction h with
  | stop => cases ho
  | ret a' => cases ho; exact hp
  | cut => cases ho
  | call _ ih => exact ih (hp _) ho

/-- every call of the program satisfies `A`, and every exception it can end with `Q` -/
def Within (A : S.Call → Prop) (Q : ε → Prop) (p : ExceptT ε (Prog S) α) : Prop :=
  Only A p.run ∧ Returns (fun r => ∀ e, r = .error e → Q e) p.run

section
variable {A : S.Call → Prop} {Q : ε → Prop}

theorem Within.pure (a : α) : Within A Q (Pure.pure a : ExceptT ε (Prog S) α) :=
  ⟨trivial, fun _ he => nomatch he⟩

theorem Within.throw {e : ε} (he : Q e) : Within A Q (throw e : ExceptT ε (Prog S) α) := by
  refine ⟨trivial, fun e' he' => ?_⟩
  cases he'
  exact he

theorem Within.perform {c : S.Call} (hc : A c) :
    Within A Q (ExceptT.lift (Prog.perform c) : ExceptT ε (Prog S) (S.Ans c)) :=
  ⟨⟨hc, fun _ => trivial⟩, fun _ _ he => nomatch he⟩

theorem Within.bind {p : ExceptT ε (Prog S) α} {f : α → ExceptT ε (Prog S) β}
    (hp : Within A Q p) (hf : ∀ a, Within A Q (f a)) : Within A Q (p >>= f) := by
  refine ⟨Only.bindE hp.1 fun a => (hf a).1, ?_⟩
  rw [ExceptT.run_bind]
  refine Returns.bind hp.2 fun r hr => ?_
  cases r with
  | ok a => exact (hf a).2
  | error e =>
    intro e' he
    cases he
    exact hr e rfl

theorem Within.error {p : ExceptT ε (Prog S) α} {tr : Trace S} {e : ε} (hp : Within A Q p)
    (h : Runs p.run tr (.done (.error e))) : Q e := h.returns hp.2 e rfl

end

/-! ## programs without cuts -/

def CutFree : Prog S α → Prop
  | .ret _ => True
  | .call _ k => ∀ a, CutFree (k a)
  | .cut => False

theorem CutFree.bind {p : Prog S α} {f : α → Prog S β} (hp : CutFree p)
    (hf : ∀ a, CutFree (f a)) : CutFree (p >>= f) := by
  induction p with
  | ret a => exact hf a
  | call c k ih => exact fun a => ih a (hp a)
  | cut => exact False.elim hp

theorem CutFree.bindE {p : ExceptT ε (Prog S) α} {f : α → ExceptT ε (Prog S) β}
    (hp : CutFree p.run) (hf : ∀ a, CutFree (f a).run) : CutFree (p >>= f).run := by
  rw [ExceptT.run_bind]
  refine CutFree.bind hp fun r => ?_
  cases r with
  | ok a => exact hf a
  | error e => trivial

theorem Runs.not_cut {p : Prog S α} {tr : Trace S} (h : Runs p tr .cut) : ¬ CutFree p := by
  generalize ho : (Outcome.cut : Outcome α) = o at h
  induction h with
  | stop => cases ho
  | ret => cases ho
  | cut => exact id
  | call _ ih => exact fun hp => ih ho (hp _)

/-- a run that was cut was cut in the second part -/
theorem Runs.bindE_cut {p : ExceptT ε (Prog S) α} {f : α → ExceptT ε (Prog S) β} {tr : Trace S}
    (h : Runs (p >>= f).run tr .cut) (hp : CutFree p.run) :
    ∃ a tr₁ tr₂, tr = tr₁ ++ tr₂ ∧ Runs p.run tr₁ (.done (.ok a)) ∧ Runs (f a).run tr₂ .cut := by
  rcases h.bindE_inv with h | ⟨o₁, ho, h₁⟩
  · exact h
  · rw [ho.cut] at h₁
    exact absurd hp h₁.not_cut

/-! ## the last call of a program -/

/-- a program that has returned made a call with `L` last, or no call at all -/
def LastCall (L : Event S → Prop) (p : Prog S α) : Prop :=
  ∀ tr e a, Runs p (tr ++ [e]) (.done a) → L e

/-- a program that does not return without a call -/
def Calls (p : Prog S α) : Prop := ∀ a, ¬ Runs p [] (.done a)

section
variable {L : Event S → Prop}

theorem Calls.call {c : S.Call} {k : S.Ans c → Prog S α} : Calls (.call c k) := by
  intro a h
  cases h

theorem LastCall.of_only {A : S.Call → Prop} {p : Prog S α} (hp : Only A p)
    (hL : ∀ e : Event S, A e.call → L e) : LastCall L p := by
  intro tr e a h
  exact hL e (h.only hp e (List.mem_append_right _ (List.mem_singleton.mpr rfl)))

theorem LastCall.bindE {p : ExceptT ε (Prog S) α} {f : α → ExceptT ε (Prog S) β}
    (hp : LastCall L p.run) (hf : ∀ a, LastCall L (f a).run) : LastCall L (p >>= f).run := by
  intro tr e r h
  rcases h.bindE_inv with ⟨a, t, u, heq, h₁, h₂⟩ | ⟨o₁, ho, h₁⟩
  · rcases List.eq_nil_or_concat' u with rfl | ⟨u', e', rfl⟩
    · rw [List.append_nil] at heq
      subst heq
      exact hp tr e _ h₁
    · rw [← List.append_assoc] at heq
      obtain ⟨rfl, hlast⟩ := List.append_inj' heq rfl
      cases hlast
      exact hf a u' _ r h₂
  · cases r with
    | ok b => exact absurd ho Outcome.Aborts.not_ok
    | error err =>
      rw [ho.error] at h₁
      exact hp tr e _ h₁

end

/-- the answer of the last call is up to the environment -/
theorem Runs.reanswer {p : Prog S α} {tr : Trace S} {c : S.Call} {a : S.Ans c} (b : S.Ans c)
    (h : Runs p (tr ++ [⟨c, a⟩]) .running) : Runs p (tr ++ [⟨c, b⟩]) .running := by
  induction p generalizing tr with
  | ret x => obtain ⟨hnil, _⟩ := Runs.ret_inv h; simp at hnil
  | call c' k ih =>
    cases tr with
    | nil =>
      cases h with
      | call _ => exact .call (.stop _)
    | cons e tr =>
      cases h with
      | call h => exact .call (ih _ h)
  | cut =>
    generalize htr : tr ++ [(⟨c, a⟩ : Event S)] = l at h
    cases h with
    | stop => simp at htr

/-! ## the run against a computing environment -/

/-- the environment answers each call from the history so far; the trace of the run and the
value returned, if any -/
def exec (serve : Trace S → (c : S.Call) → S.Ans c) : Trace S → Prog S α → Trace S × Option α
  | _, .ret a => ([], some a)
  | h, .call c k =>
    let r := exec serve (h ++ [⟨c, serve h c⟩]) (k (serve h c))
    (⟨c, serve h c⟩ :: r.1, r.2)
  | _, .cut => ([], none)

theorem exec_runs (serve : Trace S → (c : S.Call) → S.Ans c) (h : Trace S) (p : Prog S α)
    (a : α) (hx : (exec serve h p).2 = some a) : Runs p (exec serve h p).1 (.done a) := by
  induction p generalizing h with
  | ret b =>
    cases hx
    exact .ret _
  | call c k ih => exact .call (ih _ _ hx)
  | cut => cases hx

theorem exec_cut (serve : Trace S → (c : S.Call) → S.Ans c) (h : Trace S) (p : Prog S α)
    (hx : (exec serve h p).2 = none) : Runs p (exec serve h p).1 .cut := by
  induction p generalizing h with
  | ret b => cases hx
  | call c k ih => exact .call (ih _ _ hx)
  | cut => exact .cut

/-- every answer in the run was computed by the environment -/
theorem exec_served (serve : Trace S → (c : S.Call) → S.Ans c) (h : Trace S) (p : Prog S α) :
    ∀ e ∈ (exec serve h p).1, ∃ h', e.ans = serve h' e.call := by
  induction p generalizing h with
  | ret b => exact fun e he => nomatch he
  | call c k ih =>
    intro e he
    rcases List.mem_cons.mp he with rfl | he
    · exact ⟨h, rfl⟩
    · exact ih _ _ e he
  | cut => exact fun e he => nomatch he

theorem exec_bind (serve : Trace S → (c : S.Call) → S.Ans c) (h : Trace S) (p : Prog S α)
    (f : α → Prog S β) {tr : Trace S} {a : α} (hx : exec serve h p = (tr, some a)) :
    exec serve h (p >>= f) =
      (tr ++ (exec serve (h ++ tr) (f a)).1, (exec serve (h ++ tr) (f a)).2) := by
  induction p generalizing h tr with
  | ret b =>
    cases hx
    rw [List.append_nil, List.nil_append]
    rfl
  | call c k ih =>
    obtain ⟨rfl, h2⟩ := Prod.mk.inj hx
    have := ih (serve h c) (h ++ [⟨c, serve h c⟩]) (Prod.ext rfl h2)
    rw [List.append_assoc] at this
    exact congrArg (fun r : Trace S × Option β => (⟨c, serve h c⟩ :: r.1, r.2)) this
  | cut => cases hx

theorem exec_bindE (serve : Trace S → (c : S.Call) → S.Ans c) (h : Trace S)
    (p : ExceptT ε (Prog S) α) (f : α → ExceptT ε (Prog S) β) {tr : Trace S} {a : α}
    (hx : exec serve h p.run = (tr, some (.ok a))) :
    exec serve h (p >>= f).run =
      (tr ++ (exec serve (h ++ tr) (f a).run).1, (exec serve (h ++ tr) (f a).run).2) := by
  rw [ExceptT.run_bind]
  exact exec_bind serve h p.run _ hx

/-- what does not return does not go on -/
theorem exec_bind_none (serve : Trace S → (c : S.Call) → S.Ans c) (h : Trace S) (p : Prog S α)
    (f : α → Prog S β) (hx : (exec serve h p).2 = none) : (exec serve h (p >>= f)).2 = none := by
  induction p generalizing h with
  | ret a => cases hx
  | call c k ih => exact ih (serve h c) (h ++ [⟨c, serve h c⟩]) hx
  | cut => rfl

theorem exec_bindE_none (serve : Trace S → (c : S.Call) → S.Ans c) (h : Trace S)
    (p : ExceptT ε (Prog S) α) (f : α → ExceptT ε (Prog S) β) (hx : (exec serve h p.run).2 = none) :
    (exec serve h (p >>= f).run).2 = none := by
  rw [ExceptT.run_bind]
  exact exec_bind_none serve h p.run _ hx

/-- a first part that fails is all there is -/
theorem exec_bindE_error (serve : Trace S → (c : S.Call) → S.Ans c) (h : Trace S)
    (p : ExceptT ε (Prog S) α) (f : α → ExceptT ε (Prog S) β) {tr : Trace S} {e : ε}
    (hx : exec serve h p.run = (tr, some (.error e))) :
    exec serve h (p >>= f).run = (tr, some (.error e)) := by
  rw [ExceptT.run_bind, exec_bind serve h p.run _ hx]
  show (tr ++ [], some (Except.error e)) = _
  rw [List.append_nil]

/-- whatever the answers, the program returns after at most `n` calls -/
def AtMost : Prog S α → Nat → Prop
  | .ret _, _ => True
  | .call _ k, n + 1 => ∀ a, AtMost (k a) n
  | .call _ _, 0 => False
  | .cut, _ => False

theorem AtMost.add {p : Prog S α} {m : Nat} (h : AtMost p m) (n : Nat) : AtMost p (m + n) := by
  induction p generalizing m with
  | ret a => trivial
  | call c k ih =>
    cases m with
    | zero => exact False.elim h
    | succ m =>
      rw [Nat.add_right_comm]
      exact fun a => ih a (h a)
  | cut => exact False.elim h

theorem AtMost.bind {p : Prog S α} {f : α → Prog S β} {m n : Nat} (hp : AtMost p m)
    (hf : ∀ a, AtMost (f a) n) : AtMost (p >>= f) (m + n) := by
  induction p generalizing m with
  | ret a =>
    rw [Nat.add_comm]
    exact (hf a).add m
  | call c k ih =>
    cases m with
    | zero => exact False.elim hp
    | succ m =>
      rw [Nat.add_right_comm]
      exact fun a => ih a (hp a)
  | cut => exact False.elim hp

theorem AtMost.bindE {p : ExceptT ε (Prog S) α} {f : α → ExceptT ε (Prog S) β} {m n : Nat}
    (hp : AtMost p.run m) (hf : ∀ a, AtMost (f a).run n) : AtMost (p >>= f).run (m + n) := by
  rw [ExceptT.run_bind]
  refine AtMost.bind hp fun r => ?_
  cases r with
  | ok a => exact hf a
  | error e => trivial

theorem AtMost.cutFree {p : Prog S α} {n : Nat} (h : AtMost p n) : CutFree p := by
  induction p generalizing n with
  | ret a => trivial
  | call c k ih =>
    cases n with
    | zero => exact False.elim h
    | succ n => exact fun a => ih a (h a)
  | cut => exact h

theorem AtMost.exec {p : Prog S α} {n : Nat} (hp : AtMost p n)
    (serve : Trace S → (c : S.Call) → S.Ans c) (h : Trace S) :
    ∃ tr a, exec serve h p = (tr, some a) ∧ tr.length ≤ n := by
  induction p generalizing n h with
  | ret a => exact ⟨[], a, rfl, Nat.zero_le n⟩
  | call c k ih =>
    cases n with
    | zero => exact False.elim hp
    | succ n =>
      obtain ⟨tr, a, hx, hlen⟩ := ih (serve h c) (hp _) (h ++ [⟨c, serve h c⟩])
      refine ⟨⟨c, serve h c⟩ :: tr, a, ?_, Nat.succ_le_succ hlen⟩
      rw [Effects.exec, hx]
  | cut => exact False.elim hp

/-- served by `serve` after the history `h`, the program returns `a`, and `tr` is what it does -/
def Yields (serve : Trace S → (c : S.Call) → S.Ans c) (h : Trace S) (p : ExceptT ε (Prog S) α)
    (tr : Trace S) (a : α) : Prop := exec serve h p.run = (tr, some (.ok a))

section
variable {serve : Trace S → (c : S.Call) → S.Ans c} {h : Trace S}

theorem Yields.pure (a : α) : Yields serve h (Pure.pure a : ExceptT ε (Prog S) α) [] a := rfl

theorem Yields.bind {p : ExceptT ε (Prog S) α} {f : α → ExceptT ε (Prog S) β} {tr₁ tr₂ : Trace S}
    {a : α} {b : β} (hp : Yields serve h p tr₁ a) (hf : Yields serve (h ++ tr₁) (f a) tr₂ b) :
    Yields serve h (p >>= f) (tr₁ ++ tr₂) b := by
  unfold Yields at *
  rw [exec_bindE serve h p f hp, hf]

theorem Yields.runs {p : ExceptT ε (Prog S) α} {tr : Trace S} {a : α} (hy : Yields serve h p tr a) :
    Runs p.run tr (.done (.ok a)) := by
  have hr := exec_runs serve h p.run (.ok a) (congrArg Prod.snd hy)
  rwa [show (exec serve h p.run).1 = tr from congrArg Prod.fst hy] at hr

end

end

end Effects
