import ProtonDrive.Lib.Paths
import ProtonDrive.Lib.Prog

/-!
# Programs that follow a transition relation

* `Follows T phase p Fits`
                     every run of `p` is a path of `T` from `phase`, and if the program returns, it has come
                     to a phase that fits what it returns;
* `follows_pure`, `follows_call`, `Follows.bind`, `Follows.caught`
                     the rules for the parts of a program;
* `follows_only`     a program whose calls all leave the phase as it is;
* `Follows.map`      the same in another relation.
-/

set_option linter.unusedVariables false

namespace Effects
open Paths

variable {S : Sig} {P ε α β : Type} {T : P → Event S → P → Prop} {phase : P}

def Follows (T : P → Event S → P → Prop) (phase : P) (p : ExceptT ε (Prog S) α)
    (Fits : Except ε α → P → Prop) : Prop :=
  ∀ tr o, Runs p.run tr o → ∃ q, Path T phase tr q ∧ ∀ r, o = .done r → Fits r q

section
variable {Fits : Except ε α → P → Prop}

theorem follows_pure {a : Except ε α} (h : Fits a phase) :
    Follows T phase (ExceptT.mk (pure a) : ExceptT ε (Prog S) α) Fits := by
  intro tr o hrun
  obtain ⟨rfl, ho⟩ := Runs.ret_inv hrun
  refine ⟨phase, .nil phase, ?_⟩
  intro r hr
  rcases ho with ho | ho
  · rw [ho] at hr
    cases hr
    exact h
  · rw [ho] at hr
    cases hr

theorem follows_call {c : S.Call} {f : S.Ans c → ExceptT ε (Prog S) α} {next : S.Ans c → P}
    (hturn : ∀ a, T phase ⟨c, a⟩ (next a)) (hf : ∀ a, Follows T (next a) (f a) Fits) :
    Follows T phase (ExceptT.mk (.call c fun a => (f a).run)) Fits := by
  intro tr o h
  rcases Runs.call_inv h with ⟨rfl, rfl⟩ | ⟨a, t, rfl, k⟩
  · exact ⟨phase, .nil phase, nofun⟩
  · obtain ⟨q, hpath, hq⟩ := hf a t o k
    exact ⟨q, .cons (hturn a) hpath, hq⟩

/-- a program that is given up -/
theorem follows_cut : Follows T phase (ExceptT.mk Prog.cut : ExceptT ε (Prog S) α) Fits := by
  intro tr o h
  cases h with
  | stop => exact ⟨phase, .nil phase, nofun⟩
  | cut => exact ⟨phase, .nil phase, nofun⟩

end

section
variable {p : ExceptT ε (Prog S) α} {Mid : Except ε α → P → Prop} {Fits : Except ε β → P → Prop}

theorem Follows.bind {f : α → ExceptT ε (Prog S) β} (hp : Follows T phase p Mid)
    (hok : ∀ a q, Mid (.ok a) q → Follows T q (f a) Fits)
    (herror : ∀ e q, Mid (.error e) q → Fits (.error e) q) : Follows T phase (p >>= f) Fits := by
  intro tr o h
  rcases h.bindE_inv with ⟨a, t, u, rfl, h₁, k⟩ | ⟨o₁, ho, h₁⟩
  · obtain ⟨q, hpath, hmid⟩ := hp t _ h₁
    obtain ⟨q', hrest, hfits⟩ := hok a q (hmid _ rfl) u o k
    exact ⟨q', hpath.append hrest, hfits⟩
  · obtain ⟨q, hpath, hmid⟩ := hp tr o₁ h₁
    refine ⟨q, hpath, ?_⟩
    rintro r rfl
    cases r with
    | ok b => exact absurd ho Outcome.Aborts.not_ok
    | error e => exact herror e q (hmid _ ho.error)

/-- a part whose failure is a value -/
theorem Follows.caught {ε' : Type} {Fits' : Except ε' β → P → Prop}
    {f : Except ε α → ExceptT ε' (Prog S) β} (hp : Follows T phase p Mid)
    (hf : ∀ r q, Mid r q → Follows T q (f r) Fits') :
    Follows T phase (ExceptT.lift p.run >>= f) Fits' := by
  intro tr o h
  rw [ExceptT.run_bind_lift] at h
  rcases h.bind_inv with ⟨r, t, u, rfl, h₁, k⟩ | ⟨o₁, ho, h₁⟩
  · obtain ⟨q, hpath, hmid⟩ := hp t _ h₁
    obtain ⟨q', hrest, hfits⟩ := hf r q (hmid r rfl) u o k
    exact ⟨q', hpath.append hrest, hfits⟩
  · obtain ⟨q, hpath, _⟩ := hp tr o₁ h₁
    refine ⟨q, hpath, ?_⟩
    rintro r rfl
    rcases ho.eq with ⟨_, ho⟩ | ⟨_, ho⟩ <;> cases ho

end

/-- a program whose calls all leave the phase as it is -/
theorem follows_only {A : S.Call → Prop} {p : ExceptT ε (Prog S) α} (hp : Only A p.run)
    (hT : ∀ e : Event S, A e.call → T phase e phase) :
    Follows T phase p fun _ q => q = phase := by
  intro tr o h
  have hcalls := h.only hp
  refine ⟨phase, ?_, fun _ _ => rfl⟩
  clear h
  induction tr with
  | nil => exact .nil phase
  | cons e tr ih =>
    have hhead := hT e (hcalls e List.mem_cons_self)
    exact .cons hhead (ih fun e' he' => hcalls e' (List.mem_cons_of_mem _ he'))

theorem Follows.map {P' : Type} {T' : P' → Event S → P' → Prop} {g : P → P'}
    {p : ExceptT ε (Prog S) α} {Fits : Except ε α → P → Prop} {Fits' : Except ε α → P' → Prop}
    (hp : Follows T phase p Fits) (hT : ∀ q e q', T q e q' → T' (g q) e (g q'))
    (hfits : ∀ r q, Fits r q → Fits' r (g q)) : Follows T' (g phase) p Fits' := by
  intro tr o h
  obtain ⟨q, hpath, hq⟩ := hp tr o h
  exact ⟨g q, hpath.map hT, fun r hr => hfits r q (hq r hr)⟩

end Effects
