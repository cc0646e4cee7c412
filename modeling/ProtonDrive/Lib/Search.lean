import Mathlib.Data.List.Basic

/-!
# Searching a list whose elements may be unreadable

* `any read good as`   is there an element that is `good` once it is read?  The search stops at the
                       first one that is, and fails at one that cannot be read;
* `Guarded`            each element that cannot be read comes after one that is good: just then the
                       search does not fail (`any_ok`), and it says whether there is a good element
                       (`any_found`);
* `leading read as`    what is read before the first element that cannot be: a search succeeds just
                       if one of them is good (`any_hit`);
* `guarded_every_order`
                       this holds in every order of the list just if all elements can be read.
-/

set_option linter.unusedVariables false

namespace Search

section
variable {α β ε : Type} (read : α → Except ε β) (good : β → Bool)

def any : List α → Except ε Bool
  | [] => .ok false
  | a :: rest =>
    match read a with
    | .error e => .error e
    | .ok b => if good b then .ok true else any rest

/-- what is read before the first element that cannot be -/
def leading : List α → List β
  | [] => []
  | a :: rest =>
    match read a with
    | .error e => []
    | .ok b => b :: leading rest

def Reads (a : α) : Prop := ∃ b, read a = .ok b

def Hits (a : α) : Prop := ∃ b, read a = .ok b ∧ good b = true

def Guarded (as : List α) : Prop :=
  ∀ pre a post, as = pre ++ a :: post → ¬ Reads read a → ∃ hit ∈ pre, Hits read good hit

variable {read good} {as : List α} {a : α} {b : β}

theorem Hits.reads (h : Hits read good a) : Reads read a := by
  obtain ⟨b, hb, _⟩ := h
  exact ⟨b, hb⟩

theorem guarded_nil : Guarded read good [] := by
  intro pre a post h
  cases pre <;> cases h

/-- behind a good element anything may stand -/
theorem guarded_of_hit (h : Hits read good a) : Guarded read good (a :: as) := by
  intro pre x post heq hx
  cases pre with
  | nil =>
    cases heq
    exact absurd h.reads hx
  | cons y pre =>
    cases heq
    exact ⟨a, List.mem_cons_self, h⟩

/-- an element that is read and is not good decides nothing -/
theorem guarded_cons (hread : Reads read a) (hmiss : ¬ Hits read good a) :
    Guarded read good (a :: as) ↔ Guarded read good as := by
  constructor
  · intro h pre x post heq hx
    obtain ⟨hit, hmem, hhit⟩ := h (a :: pre) x post (by rw [heq, List.cons_append]) hx
    rcases List.mem_cons.mp hmem with rfl | hmem
    · exact absurd hhit hmiss
    · exact ⟨hit, hmem, hhit⟩
  · intro h pre x post heq hx
    cases pre with
    | nil =>
      cases heq
      exact absurd hread hx
    | cons y pre =>
      obtain ⟨rfl, hrest⟩ := List.cons.inj heq
      obtain ⟨hit, hmem, hhit⟩ := h pre x post hrest hx
      exact ⟨hit, List.mem_cons_of_mem _ hmem, hhit⟩

theorem any_ok : (∃ found, any read good as = .ok found) ↔ Guarded read good as := by
  induction as with
  | nil => exact ⟨fun _ => guarded_nil, fun _ => ⟨false, rfl⟩⟩
  | cons a rest ih =>
    rw [any]
    cases hread : read a with
    | error e =>
      have hunread : ¬ Reads read a := by
        intro ⟨b, hb⟩
        rw [hread] at hb
        cases hb
      constructor
      · intro ⟨found, h⟩
        cases h
      · intro h
        obtain ⟨hit, hmem, _⟩ := h [] a rest rfl hunread
        cases hmem
    | ok b =>
      dsimp only
      cases hgood : good b with
      | true =>
        have hhit : Hits read good a := ⟨b, hread, hgood⟩
        exact ⟨fun _ => guarded_of_hit hhit, fun _ => ⟨true, rfl⟩⟩
      | false =>
        have hmiss : ¬ Hits read good a := by
          intro ⟨b', hb, hgood'⟩
          rw [hread] at hb
          cases hb
          rw [hgood] at hgood'
          cases hgood'
        rw [guarded_cons ⟨b, hread⟩ hmiss]
        exact ih

/-- a search that does not fail finds what is there -/
theorem any_found {found : Bool} (h : any read good as = .ok found) :
    found = true ↔ ∃ a ∈ as, Hits read good a := by
  induction as with
  | nil =>
    cases h
    simp
  | cons a rest ih =>
    rw [any] at h
    cases hread : read a with
    | error e =>
      rw [hread] at h
      cases h
    | ok b =>
      simp only [hread] at h
      cases hgood : good b with
      | true =>
        rw [hgood] at h
        cases h
        exact ⟨fun _ => ⟨a, List.mem_cons_self, b, hread, hgood⟩, fun _ => rfl⟩
      | false =>
        rw [hgood] at h
        rw [ih h]
        constructor
        · intro ⟨x, hx, hhit⟩
          exact ⟨x, List.mem_cons_of_mem _ hx, hhit⟩
        · intro ⟨x, hx, hhit⟩
          rcases List.mem_cons.mp hx with rfl | hx
          · obtain ⟨b', hb, hgood'⟩ := hhit
            rw [hread] at hb
            cases hb
            rw [hgood] at hgood'
            cases hgood'
          · exact ⟨x, hx, hhit⟩

theorem any_hit : any read good as = .ok true ↔ ∃ b ∈ leading read as, good b = true := by
  induction as with
  | nil => simp [any, leading]
  | cons a rest ih =>
    rw [any, leading]
    cases hread : read a with
    | error e => simp
    | ok b =>
      dsimp only
      cases hgood : good b with
      | true => simp [hgood]
      | false =>
        rw [if_neg Bool.false_ne_true, ih]
        simp [hgood]

theorem mem_readable :
    b ∈ as.filterMap (fun a => (read a).toOption) ↔ ∃ a ∈ as, read a = .ok b := by
  rw [List.mem_filterMap]
  refine exists_congr fun a => and_congr_right fun _ => ?_
  cases read a with
  | error e => simp [Except.toOption]
  | ok b' => simp [Except.toOption]

/-- behind an element that cannot be read there is no leading one -/
theorem leading_readable (h : b ∈ leading read as) :
    b ∈ as.filterMap fun a => (read a).toOption := by
  induction as with
  | nil => cases h
  | cons a rest ih =>
    rw [leading] at h
    cases hread : read a with
    | error e =>
      rw [hread] at h
      cases h
    | ok b' =>
      rw [hread] at h
      rw [mem_readable]
      rcases List.mem_cons.mp h with rfl | h
      · exact ⟨a, List.mem_cons_self, hread⟩
      · obtain ⟨x, hx, hb⟩ := mem_readable.mp (ih h)
        exact ⟨x, List.mem_cons_of_mem _ hx, hb⟩

theorem guarded_of_reads (h : ∀ a ∈ as, Reads read a) : Guarded read good as := by
  intro pre a post heq hunread
  refine absurd (h a ?_) hunread
  rw [heq]
  exact List.mem_append_right _ List.mem_cons_self

theorem guarded_every_order :
    (∀ as' : List α, as'.Perm as → Guarded read good as') ↔ ∀ a ∈ as, Reads read a := by
  constructor
  · intro h a ha
    by_contra hunread
    -- the order with `a` in front
    obtain ⟨pre, post, rfl⟩ := List.append_of_mem ha
    have hguarded := h (a :: (pre ++ post)) List.perm_middle.symm
    obtain ⟨hit, hmem, _⟩ := hguarded [] a _ rfl hunread
    cases hmem
  · intro h as' hperm
    exact guarded_of_reads fun a ha => h a (hperm.mem_iff.mp ha)

end

end Search
