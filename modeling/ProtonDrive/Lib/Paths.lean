import Mathlib.Data.List.Basic
import Mathlib.Data.List.Induction

/-!
# Paths of a labelled transition relation, and interleavings

* `Path T p l q`          the labels `l` lead from `p` to `q`;
* `Path.invariant`        what every step preserves holds at the end of a path, if it holds at its
                          beginning;
* `Path.recorded`         the same for what speaks of the labels so far too;
* `proj i H`              the items of the history `H` that belong to `i`;
* `interleaved`           an invariant of a shared state and of the local states of many parties: it holds
                          all along every history that is a path of the shared state, and whose projections
                          are paths of the parties;
* `chapters cs`           a history in which the parties act one after the other (`chapters_over`).
-/

set_option linter.unusedVariables false

namespace Paths

inductive Path {P E : Type} (T : P → E → P → Prop) : P → List E → P → Prop
  | nil (p) : Path T p [] p
  | cons {p e q l r} (h : T p e q) (hrest : Path T q l r) : Path T p (e :: l) r

section
variable {P E : Type} {T : P → E → P → Prop} {p q r : P} {e : E} {l l' : List E}

theorem Path.one (h : T p e q) : Path T p [e] q := .cons h (.nil q)

theorem Path.append (h : Path T p l q) (h' : Path T q l' r) : Path T p (l ++ l') r := by
  induction h with
  | nil => exact h'
  | cons hstep _ ih => exact .cons hstep (ih h')

theorem Path.concat (h : Path T p l q) (h' : T q e r) : Path T p (l ++ [e]) r := h.append (.one h')

theorem Path.append_inv (h : Path T p (l ++ l') r) : ∃ q, Path T p l q ∧ Path T q l' r := by
  induction l generalizing p with
  | nil => exact ⟨p, .nil p, h⟩
  | cons e l ih =>
    cases h with
    | cons hstep hrest =>
      obtain ⟨q, hl, hl'⟩ := ih hrest
      exact ⟨q, .cons hstep hl, hl'⟩

theorem Path.nil_inv (h : Path T p [] q) : q = p := by
  cases h
  rfl

theorem Path.one_inv (h : Path T p [e] q) : T p e q := by
  cases h with
  | cons hstep hrest =>
    cases hrest
    exact hstep

theorem Path.concat_inv (h : Path T p (l ++ [e]) r) : ∃ q, Path T p l q ∧ T q e r := by
  obtain ⟨q, hl, he⟩ := h.append_inv
  exact ⟨q, hl, he.one_inv⟩

/-- a relation in which a label has at most one effect -/
theorem Path.unique (hT : ∀ {p e q r}, T p e q → T p e r → q = r) (h : Path T p l q)
    (h' : Path T p l r) : q = r := by
  induction h with
  | nil => exact h'.nil_inv.symm
  | cons hstep _ ih =>
    cases h' with
    | cons hstep' hrest' =>
      obtain rfl := hT hstep hstep'
      exact ih hrest'

/-- the run rule: what each step of the path preserves -/
theorem Path.invariant {I : P → Prop} (h : Path T p l q)
    (hstep : ∀ p e q, e ∈ l → I p → T p e q → I q) (hp : I p) : I q := by
  induction h with
  | nil => exact hp
  | cons hT hrest ih =>
    exact ih (fun p e q he => hstep p e q (List.mem_cons_of_mem _ he))
      (hstep _ _ _ List.mem_cons_self hp hT)

/-- the run rule for what also speaks of the labels so far -/
theorem Path.recorded {I : List E → P → Prop} (h : Path T p l q)
    (hstep : ∀ l p e q, I l p → T p e q → I (l ++ [e]) q) (hp : I [] p) : I l q := by
  have hall : ∀ pre, I pre p → I (pre ++ l) q := by
    clear hp
    induction h with
    | nil =>
      intro pre hp
      rwa [List.append_nil]
    | cons hT _ ih =>
      intro pre hp
      rw [List.append_cons]
      exact ih _ (hstep _ _ _ _ hp hT)
  exact hall [] hp

theorem Path.labels {I : E → Prop} (h : Path T p l q) (hT : ∀ p e q, T p e q → I e) : ∀ e ∈ l, I e := by
  induction h with
  | nil => exact nofun
  | cons hstep _ ih =>
    intro e he
    rcases List.mem_cons.mp he with rfl | he
    · exact hT _ _ _ hstep
    · exact ih e he

/-- labels that change nothing -/
theorem Path.stays (h : ∀ e ∈ l, T p e p) : Path T p l p := by
  induction l with
  | nil => exact .nil p
  | cons e l ih => exact .cons (h e List.mem_cons_self) (ih fun e he => h e (List.mem_cons_of_mem _ he))

/-- a path seen in another relation -/
theorem Path.map {P' : Type} {T' : P' → E → P' → Prop} {f : P → P'}
    (hT : ∀ p e q, T p e q → T' (f p) e (f q)) (h : Path T p l q) : Path T' (f p) l (f q) := by
  induction h with
  | nil => exact .nil _
  | cons hstep _ ih => exact .cons (hT _ _ _ hstep) ih

end

/-! ## interleavings -/

section
variable {I E : Type} [DecidableEq I]

/-- what `i` did in a history -/
def proj (i : I) (H : List (I × E)) : List E := (H.filter fun x => x.1 = i).map Prod.snd

variable {i j : I} {e : E} {H H' : List (I × E)}

@[simp] theorem proj_nil : proj i ([] : List (I × E)) = [] := rfl

@[simp] theorem proj_append : proj i (H ++ H') = proj i H ++ proj i H' := by
  unfold proj
  rw [List.filter_append, List.map_append]

theorem proj_cons (x : I × E) : proj i (x :: H) = proj i [x] ++ proj i H := by
  show proj i ([x] ++ H) = _
  rw [proj_append]

theorem proj_self : proj i [(i, e)] = [e] := by
  unfold proj
  rw [List.filter_cons_of_pos (by simp)]
  rfl

theorem proj_other (h : j ≠ i) : proj i [(j, e)] = [] := by
  unfold proj
  rw [List.filter_cons_of_neg (by simpa using h)]
  rfl

/-- a stretch of a history in which only `i` acts -/
theorem proj_map_self (l : List E) : proj i (l.map fun e => (i, e)) = l := by
  induction l with
  | nil => rfl
  | cons e l ih =>
    show proj i ([(i, e)] ++ l.map fun e => (i, e)) = _
    rw [proj_append, proj_self, ih]
    rfl

theorem proj_map_other (h : j ≠ i) (l : List E) : proj i (l.map fun e => (j, e)) = [] := by
  induction l with
  | nil => rfl
  | cons e l ih =>
    show proj i ([(j, e)] ++ l.map fun e => (j, e)) = _
    rw [proj_append, proj_other h, ih]
    rfl

theorem mem_proj : e ∈ proj i H ↔ (i, e) ∈ H := by
  unfold proj
  constructor
  · intro h
    obtain ⟨x, hx, rfl⟩ := List.mem_map.mp h
    obtain ⟨hmem, hi⟩ := List.mem_filter.mp hx
    have hi : x.1 = i := by simpa using hi
    rw [← hi]
    exact hmem
  · intro h
    exact List.mem_map.mpr ⟨(i, e), List.mem_filter.mpr ⟨h, by simp⟩, rfl⟩

variable {W L : Type} {S : W → I × E → W → Prop} {T : I → L → E → L → Prop} {start : I → L}
  {w₀ w : W}

/-- in the history `H` the party `i` has come to the local state `q` -/
def Local (T : I → L → E → L → Prop) (start : I → L) (H : List (I × E)) (i : I) (q : L) : Prop :=
  Path (T i) (start i) (proj i H) q

/-- the party that made the last step, and the others -/
theorem Local.concat_inv {q : L} (h : Local T start (H ++ [(i, e)]) j q) :
    (i = j ∧ ∃ q₀, Local T start H j q₀ ∧ T j q₀ e q) ∨ (i ≠ j ∧ Local T start H j q) := by
  unfold Local at h
  rw [proj_append] at h
  by_cases hij : i = j
  · subst hij
    rw [proj_self] at h
    obtain ⟨q₀, hpath, hstep⟩ := h.concat_inv
    exact .inl ⟨rfl, q₀, hpath, hstep⟩
  · rw [proj_other hij, List.append_nil] at h
    exact .inr ⟨hij, h⟩

/-- after `pre` the party `i` makes the step `e` of the history `H` -/
structure StepAt (S : W → I × E → W → Prop) (T : I → L → E → L → Prop) (start : I → L) (w₀ : W)
    (H pre : List (I × E)) (i : I) (e : E) (w w' : W) (q q' : L) : Prop where
  split : ∃ post, H = pre ++ (i, e) :: post
  path : Path S w₀ pre w
  shared : S w (i, e) w'
  here : Local T start pre i q
  turn : T i q e q'

/-- `G` of the shared state, and `A` of each party beside it -/
def Holds (T : I → L → E → L → Prop) (start : I → L) (G : List (I × E) → W → Prop)
    (A : List (I × E) → W → I → L → Prop) (H : List (I × E)) (w : W) : Prop :=
  G H w ∧ ∀ j p, Local T start H j p → A H w j p

/-- a party that makes a step of a history makes it from one local state to another -/
theorem Local.moved {pre post : List (I × E)} {q : L} (h : Local T start (pre ++ (i, e) :: post) i q) :
    ∃ q₀ q₁, Local T start pre i q₀ ∧ T i q₀ e q₁ := by
  unfold Local at h
  rw [List.append_cons, proj_append, proj_append, proj_self] at h
  obtain ⟨q₁, hpath, _⟩ := h.append_inv
  obtain ⟨q₀, hpre, hturn⟩ := hpath.concat_inv
  exact ⟨q₀, q₁, hpre, hturn⟩

/-- the rule for parties that share a state: the step of a party has to preserve what is known of the
shared state and of the party, and of the others -/
theorem interleaved {G : List (I × E) → W → Prop} {A : List (I × E) → W → I → L → Prop}
    (hlocal : ∀ i, ∃ q, Local T start H i q) (hG₀ : G [] w₀) (hA₀ : ∀ i, A [] w₀ i (start i))
    (hstep : ∀ {pre i e w w' q q'}, StepAt S T start w₀ H pre i e w w' q q' →
      Holds T start G A pre w →
        G (pre ++ [(i, e)]) w' ∧ A (pre ++ [(i, e)]) w' i q' ∧
          ∀ j p, i ≠ j → Local T start pre j p → A (pre ++ [(i, e)]) w' j p)
    {pre post : List (I × E)} {w : W} (hH : H = pre ++ post) (hpath : Path S w₀ pre w) :
    Holds T start G A pre w := by
  induction pre using List.reverseRecOn generalizing post w with
  | nil =>
    obtain rfl := hpath.nil_inv
    refine ⟨hG₀, fun j p hp => ?_⟩
    obtain rfl := Path.nil_inv hp
    exact hA₀ j
  | append_singleton pre x ih =>
    obtain ⟨i, e⟩ := x
    obtain ⟨w', hpre, hshared⟩ := hpath.concat_inv
    have hH' : H = pre ++ (i, e) :: post := by rw [hH, List.append_assoc]; rfl
    have hholds := ih hH' hpre
    obtain ⟨qEnd, hEnd⟩ := hlocal i
    rw [hH'] at hEnd
    obtain ⟨q, q', hq, hturn⟩ := hEnd.moved
    obtain ⟨hG, _, hothers⟩ := hstep ⟨⟨post, hH'⟩, hpre, hshared, hq, hturn⟩ hholds
    refine ⟨hG, fun j p hp => ?_⟩
    rcases hp.concat_inv with ⟨rfl, p₀, hp₀, hown⟩ | ⟨hne, hp⟩
    · exact (hstep ⟨⟨post, hH'⟩, hpre, hshared, hp₀, hown⟩ hholds).2.1
    · exact hothers j p hne hp

end

/-! ## histories in chapters -/

section
variable {I E : Type} {i j : I} {e : E} {l : List E}
  {cs before after : List (I × List E)} {pre post : List (I × E)}

/-- one party acts after the other -/
def chapters (cs : List (I × List E)) : List (I × E) := cs.flatMap fun c => c.2.map fun e => (c.1, e)

theorem chapters_cons (i : I) (l : List E) (cs : List (I × List E)) :
    chapters ((i, l) :: cs) = l.map (fun e => (i, e)) ++ chapters cs := rfl

theorem chapters_append (cs cs' : List (I × List E)) :
    chapters (cs ++ cs') = chapters cs ++ chapters cs' := List.flatMap_append

theorem mem_chapters : (i, e) ∈ chapters cs ↔ ∃ l, (i, l) ∈ cs ∧ e ∈ l := by
  unfold chapters
  constructor
  · intro h
    obtain ⟨⟨i', l⟩, hc, hmem⟩ := List.mem_flatMap.mp h
    obtain ⟨e', he', heq⟩ := List.mem_map.mp hmem
    cases heq
    exact ⟨l, hc, he'⟩
  · intro ⟨l, hc, he⟩
    exact List.mem_flatMap.mpr ⟨(i, l), hc, List.mem_map.mpr ⟨e, he, rfl⟩⟩

variable [DecidableEq I]

/-- a party without a chapter does nothing -/
theorem proj_chapters_nil (h : ∀ c ∈ cs, c.1 ≠ i) : proj i (chapters cs) = [] := by
  refine List.eq_nil_iff_forall_not_mem.mpr fun e he => ?_
  obtain ⟨l, hc, _⟩ := mem_chapters.mp (mem_proj.mp he)
  exact h _ hc rfl

/-- a party with one chapter does what stands there -/
theorem proj_chapters (hcs : cs = before ++ (i, l) :: after) (hbefore : ∀ c ∈ before, c.1 ≠ i)
    (hafter : ∀ c ∈ after, c.1 ≠ i) : proj i (chapters cs) = l := by
  rw [hcs, chapters_append, chapters_cons, proj_append, proj_append, proj_chapters_nil hbefore,
    proj_chapters_nil hafter, proj_map_self, List.append_nil, List.nil_append]

/-- once a party has acted whose chapter is a later one, a chapter is over -/
theorem chapters_over (hcs : cs = before ++ (i, l) :: after) (hbefore : ∀ c ∈ before, c.1 ≠ i ∧ c.1 ≠ j)
    (hafter : ∀ c ∈ after, c.1 ≠ i) (hij : i ≠ j) (h : chapters cs = pre ++ post) (he : (j, e) ∈ pre) :
    proj i pre = l := by
  have hsplit : chapters (before ++ [(i, l)]) ++ chapters after = pre ++ post := by
    rw [← chapters_append, List.append_assoc]
    exact hcs ▸ h
  have hdone : proj i (chapters (before ++ [(i, l)])) = l :=
    proj_chapters rfl (fun c hc => (hbefore c hc).1) (List.forall_mem_nil _)
  rcases List.append_eq_append_iff.mp hsplit with ⟨more, rfl, hmore⟩ | ⟨more, hpre, _⟩
  · have hnone := proj_chapters_nil hafter
    rw [hmore, proj_append, List.append_eq_nil_iff] at hnone
    rw [proj_append, hdone, hnone.1, List.append_nil]
  · have hmem : (j, e) ∈ chapters (before ++ [(i, l)]) := by
      rw [hpre]
      exact List.mem_append_left _ he
    obtain ⟨l', hc, _⟩ := mem_chapters.mp hmem
    rcases List.mem_append.mp hc with hc | hc
    · exact absurd rfl (hbefore _ hc).2
    · cases List.mem_singleton.mp hc
      exact absurd rfl hij

end

end Paths
