import ProtonDrive.Lib.Paths
import ProtonDrive.Lib.Prog

/-!
# Programs in an environment

The calls of a program step an environment; its answers are those the environment allows.

* `Outcome.Meets Q E`   a program has returned a value with `Q` or failed with an error of `E`, or is
                        still running; it was not cut short;
* `Triple T b p Q E`    every run of `p` from the environment `b` meets `Q`, which also looks at the
                        environment at the end.

There is one rule for each way a program is put together.
-/

set_option linter.unusedVariables false

namespace Effects
open Paths

variable {S : Sig} {B α β ε : Type}

def Outcome.Meets (Q : α → Prop) (E : ε → Prop) : Outcome (Except ε α) → Prop
  | .running => True
  | .done (.ok a) => Q a
  | .done (.error e) => E e
  | .cut => False

theorem Outcome.Meets.mono {Q R : α → Prop} {E : ε → Prop} {o : Outcome (Except ε α)}
    (h : o.Meets Q E) (hQ : ∀ a, Q a → R a) : o.Meets R E := by
  match o, h with
  | .running, _ => exact trivial
  | .done (.ok a), h => exact hQ a h
  | .done (.error _), h => exact h

/-- what is left of a first part that did not return is what the whole shows -/
theorem Outcome.Meets.aborts {Q : α → Prop} {R : β → Prop} {E : ε → Prop}
    {o : Outcome (Except ε α)} {o' : Outcome (Except ε β)} (h : o.Meets Q E) (ho : o.Aborts o') :
    o'.Meets R E := by
  match o, h with
  | .running, _ =>
    rw [ho.of_running]
    exact trivial
  | .done (.error e), h =>
    rw [ho.of_error]
    exact h
  | .done (.ok a), _ => exact absurd ho Outcome.Aborts.src_not_ok

def Triple (T : B → Event S → B → Prop) (b : B) (p : ExceptT ε (Prog S) α) (Q : B → α → Prop)
    (E : ε → Prop) : Prop :=
  ∀ tr b' o, Runs p.run tr o → Path T b tr b' → o.Meets (Q b') E

namespace Triple

variable {T : B → Event S → B → Prop} {b : B} {Q R : B → α → Prop} {E : ε → Prop}

theorem mono {p : ExceptT ε (Prog S) α} (h : Triple T b p Q E) (hQ : ∀ b' a, Q b' a → R b' a) :
    Triple T b p R E :=
  fun tr b' o hrun hpath => (h tr b' o hrun hpath).mono (hQ b')

theorem pure {a : α} (h : Q b a) : Triple T b (Pure.pure a : ExceptT ε (Prog S) α) Q E := by
  intro tr b' o hrun hpath
  obtain ⟨rfl, rfl | rfl⟩ := Runs.ret_inv hrun
  · rw [hpath.nil_inv]
    exact h
  · exact trivial

theorem throw {e : ε} (h : E e) : Triple T b (throw e : ExceptT ε (Prog S) α) Q E := by
  intro tr b' o hrun hpath
  obtain ⟨rfl, rfl | rfl⟩ := Runs.ret_inv hrun
  · exact h
  · exact trivial

theorem perform {c : S.Call} {R : B → S.Ans c → Prop} (h : ∀ a b', T b ⟨c, a⟩ b' → R b' a) :
    Triple T b (ExceptT.lift (Prog.perform c) : ExceptT ε (Prog S) _) R E := by
  intro tr b' o hrun hpath
  rcases Runs.call_inv hrun with ⟨rfl, rfl⟩ | ⟨a, tr', rfl, hrest⟩
  · exact trivial
  · obtain ⟨rfl, rfl | rfl⟩ := Runs.ret_inv hrest
    · exact h a b' hpath.one_inv
    · exact trivial

theorem bind {p : ExceptT ε (Prog S) α} {f : α → ExceptT ε (Prog S) β} {R : B → β → Prop}
    (hp : Triple T b p Q E) (hf : ∀ b' a, Q b' a → Triple T b' (f a) R E) :
    Triple T b (p >>= f) R E := by
  intro tr b' o hrun hpath
  rcases hrun.bindE_inv with ⟨a, t, u, rfl, h₁, h₂⟩ | ⟨o₁, ho, h₁⟩
  · obtain ⟨b₁, hpath₁, hpath₂⟩ := hpath.append_inv
    have ha : Q b₁ a := hp t b₁ _ h₁ hpath₁
    exact hf b₁ a ha u b' o h₂ hpath₂
  · exact (hp tr b' o₁ h₁ hpath).aborts ho

theorem ite {c : Prop} [Decidable c] {p q : ExceptT ε (Prog S) α} (hp : c → Triple T b p Q E)
    (hq : ¬c → Triple T b q Q E) : Triple T b (if c then p else q) Q E := by
  by_cases h : c
  · rw [if_pos h]
    exact hp h
  · rw [if_neg h]
    exact hq h

/-- a program whose calls leave the environment as it is -/
theorem silent {A : S.Call → Prop} {p : ExceptT ε (Prog S) α} (hA : ∀ e b b', A e.call → T b e b' → b' = b)
    (hp : Only A p.run) (h : ∀ tr o, Runs p.run tr o → o.Meets (Q b) E) : Triple T b p Q E := by
  intro tr b' o hrun hpath
  have hsame : b' = b := by
    refine hpath.invariant (I := fun x => x = b) ?_ rfl
    intro x e y he hx hstep
    rw [hA e x y (hrun.only hp e he) hstep, hx]
  rw [hsame]
  exact h tr o hrun

end Triple

end Effects
