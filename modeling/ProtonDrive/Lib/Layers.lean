import ProtonDrive.Lib.Prog

/-!
# Programs whose calls are carried out by programs

A handled program (`Prog.handle`) makes the calls of another signature.  Its runs are read here as runs of
the program itself, in which every call stands for a run of the program that carries it out:

* `Layered h tr low`       `low` is what the calls of `tr` came to, one after the other;
* `Runs.handle_inv`        a run of the handled program, taken apart;
* `Runs.handle_origin`     a single call of it: in the course of which call of the program it was made;
* `Layered.runs`           the way back;
* `Runs.handle_pairwise`   what holds between earlier and later calls;
* `Runs.renamed`           calls that are only renamed;
* `Runs.completes`         a run of a program that returns in any case goes on until it has;
* `Only.of_runs`           the calls of all runs are all the calls there are;
* `MakesAtMost A p n`      `p` makes at most `n` calls with `A`, in any run; `MakesAtMost.handle` multiplies
                           the bounds of the two layers.
-/

set_option linter.unusedSectionVars false
set_option linter.unusedVariables false

namespace Effects

section
variable {S S' : Sig} {α β ε : Type} {h : (c : S.Call) → Prog S' (S.Ans c)}

/-! ## the calls of a program and what they came to -/

inductive Layered (h : (c : S.Call) → Prog S' (S.Ans c)) : Trace S → Trace S' → Prop
  | nil : Layered h [] []
  | cons {c : S.Call} {a : S.Ans c} {tr : Trace S} {t low : Trace S'} (hc : Runs (h c) t (.done a))
      (hrest : Layered h tr low) : Layered h (⟨c, a⟩ :: tr) (t ++ low)

theorem Layered.one {c : S.Call} {a : S.Ans c} {t : Trace S'} (hc : Runs (h c) t (.done a)) :
    Layered h [⟨c, a⟩] t := by
  rw [← List.append_nil t]
  exact .cons hc .nil

theorem Layered.append {tr tr' : Trace S} {low low' : Trace S'} (hl : Layered h tr low)
    (hl' : Layered h tr' low') : Layered h (tr ++ tr') (low ++ low') := by
  induction hl with
  | nil => exact hl'
  | cons hc _ ih =>
    rw [List.append_assoc]
    exact .cons hc ih

theorem Layered.append_inv {tr tr' : Trace S} {low : Trace S'} (hl : Layered h (tr ++ tr') low) :
    ∃ low₁ low₂, low = low₁ ++ low₂ ∧ Layered h tr low₁ ∧ Layered h tr' low₂ := by
  induction tr generalizing low with
  | nil => exact ⟨[], low, rfl, .nil, hl⟩
  | cons e tr ih =>
    cases hl with
    | cons hc hrest =>
      obtain ⟨low₁, low₂, rfl, h₁, h₂⟩ := ih hrest
      exact ⟨_, low₂, (List.append_assoc _ _ _).symm, .cons hc h₁, h₂⟩

theorem Layered.one_inv {c : S.Call} {a : S.Ans c} {low : Trace S'} (hl : Layered h [⟨c, a⟩] low) :
    Runs (h c) low (.done a) := by
  cases hl with
  | cons hc hrest =>
    cases hrest with
    | nil =>
      rw [List.append_nil]
      exact hc

/-- a property of the runs that carry out single calls, summed up -/
theorem Layered.all {P : Event S' → Prop} {tr : Trace S} {low : Trace S'} (hl : Layered h tr low)
    (hP : ∀ (c : S.Call) (a : S.Ans c) t, ⟨c, a⟩ ∈ tr → Runs (h c) t (.done a) → ∀ e ∈ t, P e) :
    ∀ e ∈ low, P e := by
  induction hl with
  | nil => exact fun e he => nomatch he
  | cons hc _ ih =>
    intro e he
    rcases List.mem_append.mp he with he | he
    · exact hP _ _ _ List.mem_cons_self hc e he
    · exact ih (fun c a t hmem => hP c a t (List.mem_cons_of_mem _ hmem)) e he

/-! ## runs of handled programs -/

/-- the run of a handled program is a run of the program whose calls have all been carried out, or it has
come to the midst of one -/
theorem Runs.handle_inv {p : Prog S α} {low : Trace S'} {o : Outcome α} (hrun : Runs (p.handle h) low o) :
    (∃ tr, Layered h tr low ∧ Runs p tr o) ∨
      ∃ tr c low₁ low₂ o₁, low = low₁ ++ low₂ ∧ Layered h tr low₁ ∧
        (∀ a, Runs p (tr ++ [⟨c, a⟩]) .running) ∧ Runs (h c) low₂ o₁ ∧
        Outcome.Unfinished o₁ o := by
  induction p generalizing low with
  | ret a =>
    obtain ⟨rfl, ho⟩ := Runs.ret_inv hrun
    refine .inl ⟨[], .nil, ?_⟩
    rcases ho with rfl | rfl
    · exact .ret a
    · exact .stop _
  | call c k ih =>
    rcases Runs.bind_inv hrun with ⟨a, t, low', rfl, hc, hrest⟩ | ⟨o₁, ho, hc⟩
    · rcases ih a hrest with ⟨tr, hl, hp⟩ | ⟨tr, c', low₁, low₂, o₁, rfl, hl, hp, hc', ho⟩
      · exact .inl ⟨⟨c, a⟩ :: tr, .cons hc hl, .call hp⟩
      · exact .inr ⟨⟨c, a⟩ :: tr, c', t ++ low₁, low₂, o₁, (List.append_assoc _ _ _).symm, .cons hc hl,
          fun a' => .call (hp a'), hc', ho⟩
    · exact .inr ⟨[], c, [], low, o₁, rfl, .nil, fun a => .call (.stop _), hc, ho⟩
  | cut =>
    cases hrun with
    | stop => exact .inl ⟨[], .nil, .stop _⟩
    | cut => exact .inl ⟨[], .nil, .cut⟩

/-- every call of a handled program is made in the course of a call of the program, after what its earlier
calls came to -/
theorem Runs.handle_origin {p : Prog S α} {pre post : Trace S'} {e : Event S'} {o : Outcome α}
    (hrun : Runs (p.handle h) (pre ++ e :: post) o) :
    ∃ tr c low t, pre = low ++ t ∧ Layered h tr low ∧ (∀ a, Runs p (tr ++ [⟨c, a⟩]) .running) ∧
      Runs (h c) (t ++ [e]) .running := by
  have hshort : Runs (p.handle h) (pre ++ [e]) .running := by
    have heq : pre ++ e :: post = (pre ++ [e]) ++ post := by simp
    rw [heq] at hrun
    exact hrun.take _
  clear hrun
  induction p generalizing pre with
  | ret a =>
    obtain ⟨hnil, _⟩ := Runs.ret_inv hshort
    simp at hnil
  | call c k ih =>
    rcases Runs.bind_inv hshort with ⟨a, t, low', heq, hc, hrest⟩ | ⟨o₁, ho, hc⟩
    · rcases List.eq_nil_or_concat' low' with rfl | ⟨low'', e', rfl⟩
      · rw [List.append_nil] at heq
        have hdone : Runs (h c) (pre ++ [e] ++ []) (.done a) := by
          rw [List.append_nil, heq]
          exact hc
        exact ⟨[], c, [], pre, rfl, .nil, fun a => .call (.stop _), hdone.take _⟩
      · rw [← List.append_assoc] at heq
        obtain ⟨rfl, hlast⟩ := List.append_inj' heq rfl
        cases hlast
        obtain ⟨tr, c', low, u, rfl, hl, hp, hc'⟩ := ih a hrest
        exact ⟨⟨c, a⟩ :: tr, c', t ++ low, u, (List.append_assoc _ _ _).symm, .cons hc hl,
          fun a' => .call (hp a'), hc'⟩
    · refine ⟨[], c, [], pre, rfl, .nil, fun a => .call (.stop _), ?_⟩
      rw [← List.append_nil (pre ++ [e])] at hc
      exact hc.take _
  | cut =>
    generalize heq : pre ++ [e] = l at hshort
    cases hshort with
    | stop => simp at heq

theorem Layered.runs {p : Prog S α} {tr : Trace S} {low : Trace S'} {o : Outcome α}
    (hl : Layered h tr low) (hp : Runs p tr o) : Runs (p.handle h) low o := by
  induction hl generalizing p with
  | nil =>
    cases hp with
    | stop => exact .stop _
    | ret a => exact .ret a
    | cut => exact .cut
  | cons hc _ ih =>
    cases hp with
    | call hp => exact Runs.bind hc (ih hp)

/-! ## earlier and later calls -/

/-- a relation between the earlier and the later calls of a handled program: it is there among those that
carry out one call, and between those of two calls that are related themselves -/
theorem Runs.handle_pairwise {C : S.Call → Prop} {R : Event S' → Event S' → Prop}
    (R' : Event S → Event S → Prop) {p : Prog S α} {low : Trace S'} {o : Outcome α}
    (hans : ∀ c, Nonempty (S.Ans c)) (hC : Only C p) (hp : ∀ tr, Runs p tr .running → tr.Pairwise R')
    (hone : ∀ c t (o : Outcome (S.Ans c)), C c → Runs (h c) t o → t.Pairwise R)
    (htwo : ∀ e₁ e₂ t₁ t₂ o₂, C e₁.call → C e₂.call → R' e₁ e₂ → Runs (h e₁.call) t₁ (.done e₁.ans) →
      Runs (h e₂.call) t₂ o₂ → ∀ x ∈ t₁, ∀ y ∈ t₂, R x y)
    (hrun : Runs (p.handle h) low o) : low.Pairwise R := by
  -- the calls that are over, followed by the run `t` of one that may not be
  have hbefore : ∀ {tr : Trace S} {low₁ : Trace S'} (c : S.Call) (a : S.Ans c) (t : Trace S')
      (o₁ : Outcome (S.Ans c)), Layered h tr low₁ → Runs p (tr ++ [⟨c, a⟩]) .running →
      Runs (h c) t o₁ → (low₁ ++ t).Pairwise R := by
    intro tr low₁ c a t o₁ hl hwhole
    have hcalls := hwhole.only hC
    have hpair := hp _ hwhole
    clear hwhole
    have hlast : C c := hcalls ⟨c, a⟩ (List.mem_append_right _ List.mem_cons_self)
    induction hl with
    | nil => exact fun hc => hone c t o₁ hlast hc
    | @cons c' a' tr u low₁ hc' hrest ih =>
      intro hc
      rw [List.cons_append, List.pairwise_cons] at hpair
      have hfirst : C c' := hcalls ⟨c', a'⟩ List.mem_cons_self
      have hcalls' : ∀ e ∈ tr ++ [(⟨c, a⟩ : Event S)], C e.call :=
        fun e he => hcalls e (List.mem_cons_of_mem _ he)
      rw [List.append_assoc, List.pairwise_append]
      refine ⟨hone c' u _ hfirst hc', ih hcalls' hpair.2 hc, fun x hx y hy => ?_⟩
      rcases List.mem_append.mp hy with hy | hy
      · refine hrest.all (P := fun y => R x y) (fun d b v hmem hd y hy => ?_) y hy
        have hmem' := List.mem_append_left [(⟨c, a⟩ : Event S)] hmem
        exact htwo ⟨c', a'⟩ ⟨d, b⟩ u v _ hfirst (hcalls' _ hmem') (hpair.1 _ hmem') hc' hd x hx y hy
      · have hmem := List.mem_append_right tr (List.mem_singleton_self (⟨c, a⟩ : Event S))
        exact htwo ⟨c', a'⟩ ⟨c, a⟩ u t o₁ hfirst hlast (hpair.1 _ hmem) hc' hc x hx y hy
  rcases hrun.handle_inv with ⟨tr, hl, hp'⟩ | ⟨tr, c, low₁, low₂, o₁, rfl, hl, hp', hc, _⟩
  · rcases List.eq_nil_or_concat' tr with rfl | ⟨tr', e, rfl⟩
    · cases hl
      exact .nil
    · obtain ⟨low₁, low₂, rfl, hl₁, hl₂⟩ := hl.append_inv
      have hwhole : Runs p (tr' ++ [e]) .running := by
        rw [← List.append_nil (tr' ++ [e])] at hp'
        exact hp'.take _
      exact hbefore e.call e.ans low₂ _ hl₁ hwhole hl₂.one_inv
  · obtain ⟨a⟩ := hans c
    exact hbefore c a low₂ o₁ hl (hp' a) hc

/-! ## calls under other names -/

theorem Layered.renamed {f : Event S → Event S'} {tr : Trace S} {low : Trace S'} (hl : Layered h tr low)
    (hdone : ∀ c (a : S.Ans c) t, Runs (h c) t (.done a) → t = [f ⟨c, a⟩]) : low = tr.map f := by
  induction hl with
  | nil => rfl
  | cons hc _ ih =>
    rw [hdone _ _ _ hc, ih]
    rfl

theorem Layered.named {f : Event S → Event S'}
    (hone : ∀ c (a : S.Ans c), Runs (h c) [f ⟨c, a⟩] (.done a)) (tr : Trace S) : Layered h tr (tr.map f) := by
  induction tr with
  | nil => exact .nil
  | cons e tr ih => exact .cons (t := [f e]) (hone e.call e.ans) ih

/-- a program whose calls are only renamed -/
theorem Runs.renamed {f : Event S → Event S'} {p : Prog S α} {low : Trace S'} {o : Outcome α}
    (hans : ∀ c, Nonempty (S.Ans c))
    (hname : ∀ c t (o : Outcome (S.Ans c)), Runs (h c) t o → t = [] ∨ ∃ a, t = [f ⟨c, a⟩])
    (hdone : ∀ c (a : S.Ans c) t, Runs (h c) t (.done a) → t = [f ⟨c, a⟩])
    (hrun : Runs (p.handle h) low o) : ∃ tr, low = tr.map f ∧ Runs p tr .running := by
  rcases hrun.handle_inv with ⟨tr, hl, hp⟩ | ⟨tr, c, low₁, low₂, o₁, rfl, hl, hp, hc, _⟩
  · refine ⟨tr, hl.renamed hdone, ?_⟩
    rw [← List.append_nil tr] at hp
    exact hp.take _
  · rcases hname c low₂ o₁ hc with rfl | ⟨a, rfl⟩
    · obtain ⟨a⟩ := hans c
      refine ⟨tr, ?_, (hp a).take _⟩
      rw [List.append_nil, hl.renamed hdone]
    · refine ⟨tr ++ [⟨c, a⟩], ?_, hp a⟩
      rw [hl.renamed hdone, List.map_append]
      rfl

theorem Runs.renamed_done {f : Event S → Event S'} {p : Prog S α} {low : Trace S'} {a : α}
    (hdone : ∀ c (a : S.Ans c) t, Runs (h c) t (.done a) → t = [f ⟨c, a⟩])
    (hrun : Runs (p.handle h) low (.done a)) : ∃ tr, low = tr.map f ∧ Runs p tr (.done a) := by
  rcases hrun.handle_inv with ⟨tr, hl, hp⟩ | ⟨tr, c, low₁, low₂, o₁, rfl, hl, hp, hc, ho⟩
  · exact ⟨tr, hl.renamed hdone, hp⟩
  · rcases ho.eq with ⟨_, ho⟩ | ⟨_, ho⟩ <;> cases ho

/-! ## runs that go on -/

/-- a program that returns in any case can be seen to return, from wherever it has come to -/
theorem Runs.completes {p : Prog S α} {n : Nat} {tr : Trace S} {o : Outcome α} (hp : AtMost p n)
    (hans : ∀ c, Nonempty (S.Ans c)) (hrun : Runs p tr o) :
    ∃ tr' a, Runs p (tr ++ tr') (.done a) := by
  induction hrun generalizing n with
  | stop p =>
    obtain ⟨tr', a, hx, _⟩ := hp.exec (fun _ c => Classical.choice (hans c)) []
    have hdone := exec_runs (fun _ c => Classical.choice (hans c)) [] p a (congrArg Prod.snd hx)
    exact ⟨_, a, hdone⟩
  | ret a => exact ⟨[], a, .ret a⟩
  | cut => exact False.elim hp
  | call _ ih =>
    cases n with
    | zero => exact False.elim hp
    | succ n =>
      obtain ⟨tr', a, hdone⟩ := ih (hp _)
      exact ⟨tr', a, .call hdone⟩

/-- a program makes calls only that can be made -/
theorem Only.any (p : Prog S α) : Only (fun _ => True) p := by
  induction p with
  | ret a => trivial
  | call c k ih => exact ⟨trivial, ih⟩
  | cut => trivial

/-- a program is told by its runs, if every call can be answered -/
theorem Only.of_runs {A : S.Call → Prop} {p : Prog S α} (hans : ∀ c, Nonempty (S.Ans c))
    (h : ∀ tr o, Runs p tr o → ∀ e ∈ tr, A e.call) : Only A p := by
  induction p with
  | ret a => trivial
  | call c k ih =>
    obtain ⟨a₀⟩ := hans c
    refine ⟨h [⟨c, a₀⟩] .running (.call (.stop _)) _ List.mem_cons_self, fun a => ih a fun tr o hrun e he => ?_⟩
    exact h (⟨c, a⟩ :: tr) o (.call hrun) e (List.mem_cons_of_mem _ he)
  | cut => trivial

/-! ## counting calls -/

def MakesAtMost (A : S.Call → Bool) (p : Prog S α) (n : Nat) : Prop :=
  ∀ tr o, Runs p tr o → (tr.countP fun e => A e.call) ≤ n

theorem MakesAtMost.mono {A : S.Call → Bool} {p : Prog S α} {m n : Nat} (hp : MakesAtMost A p m)
    (hmn : m ≤ n) : MakesAtMost A p n := fun tr o hrun => Nat.le_trans (hp tr o hrun) hmn

theorem MakesAtMost.of_only {A : S.Call → Bool} {p : Prog S α} (hp : Only (fun c => A c = false) p) :
    MakesAtMost A p 0 := by
  intro tr o hrun
  refine Nat.le_of_eq (List.countP_eq_zero.mpr fun e he => ?_)
  simp [hrun.only hp e he]

theorem MakesAtMost.bind {A : S.Call → Bool} {p : Prog S α} {f : α → Prog S β} {m n : Nat}
    (hp : MakesAtMost A p m) (hf : ∀ a, MakesAtMost A (f a) n) : MakesAtMost A (p >>= f) (m + n) := by
  intro tr o hrun
  rcases hrun.bind_inv with ⟨a, t, u, rfl, h₁, h₂⟩ | ⟨o₁, _, h₁⟩
  · rw [List.countP_append]
    exact Nat.add_le_add (hp t _ h₁) (hf a u o h₂)
  · exact Nat.le_trans (hp tr o₁ h₁) (Nat.le_add_right m n)

theorem MakesAtMost.bindE {A : S.Call → Bool} {p : ExceptT ε (Prog S) α} {f : α → ExceptT ε (Prog S) β}
    {m n : Nat} (hp : MakesAtMost A p.run m) (hf : ∀ a, MakesAtMost A (f a).run n) :
    MakesAtMost A (p >>= f).run (m + n) := by
  intro tr o hrun
  rcases hrun.bindE_inv with ⟨a, t, u, rfl, h₁, h₂⟩ | ⟨o₁, _, h₁⟩
  · rw [List.countP_append]
    exact Nat.add_le_add (hp t _ h₁) (hf a u o h₂)
  · exact Nat.le_trans (hp tr o₁ h₁) (Nat.le_add_right m n)

/-- what the calls came to, where those with `B` make at most `n` calls with `A` each, and the others none -/
theorem Layered.count_le {A : S'.Call → Bool} {B : S.Call → Bool} {n : Nat} {tr : Trace S}
    {low : Trace S'} (hl : Layered h tr low)
    (hB : ∀ e ∈ tr, MakesAtMost A (h e.call) (if B e.call then n else 0)) :
    (low.countP fun e => A e.call) ≤ n * tr.countP fun e => B e.call := by
  induction hl with
  | nil => exact Nat.zero_le _
  | @cons c a tr t low hc _ ih =>
    have hfirst := hB ⟨c, a⟩ List.mem_cons_self t _ hc
    have hrest := ih fun e he => hB e (List.mem_cons_of_mem _ he)
    rw [List.countP_append, List.countP_cons]
    by_cases hb : B c = true
    · simp only [hb, if_true] at hfirst ⊢
      rw [Nat.mul_add, Nat.mul_one]
      omega
    · simp only [hb, Bool.false_eq_true, if_false, Nat.add_zero] at hfirst ⊢
      omega

theorem MakesAtMost.handle {C : S.Call → Prop} {A : S'.Call → Bool} {B : S.Call → Bool} {p : Prog S α}
    {m n : Nat} (hans : ∀ c, Nonempty (S.Ans c)) (hC : Only C p) (hp : MakesAtMost B p m)
    (hB : ∀ c, C c → MakesAtMost A (h c) (if B c then n else 0)) :
    MakesAtMost A (p.handle h) (n * m) := by
  intro low o hrun
  rcases hrun.handle_inv with ⟨tr, hl, hrun⟩ | ⟨tr, c, low₁, low₂, o₁, rfl, hl, hrun, hc, _⟩
  · have hfirst := hl.count_le fun e he => hB _ (hrun.only hC e he)
    exact Nat.le_trans hfirst (Nat.mul_le_mul_left n (hp tr o hrun))
  · -- the call that is not over counts as one of the program
    obtain ⟨a⟩ := hans c
    have hcalls := (hrun a).only hC
    have hfirst := hl.count_le fun e he => hB _ (hcalls e (List.mem_append_left _ he))
    have hlast := hB c (hcalls ⟨c, a⟩ (List.mem_append_right _ List.mem_cons_self)) low₂ o₁ hc
    have hm := hp _ _ (hrun a)
    rw [List.countP_append, List.countP_singleton] at hm
    rw [List.countP_append]
    by_cases hb : B c = true
    · simp only [hb, if_true] at hlast hm
      calc _ ≤ n * (tr.countP fun e => B e.call) + n := Nat.add_le_add hfirst hlast
        _ = n * ((tr.countP fun e => B e.call) + 1) := (Nat.mul_succ _ _).symm
        _ ≤ n * m := Nat.mul_le_mul_left n hm
    · simp only [hb, Bool.false_eq_true, if_false, Nat.add_zero] at hlast hm
      exact Nat.le_trans (Nat.add_le_add hfirst hlast) (Nat.mul_le_mul_left n hm)

end

end Effects
