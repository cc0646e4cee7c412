import Mathlib.Order.FixedPoints
import Mathlib.Order.CompletePartialOrder
import Mathlib.Data.List.Perm.Basic

/-!
# Closures, and how passes over a list reach them

* `least among base via`   the least set that contains the elements of `base`, and with an element
                           every one it leads to (`via`); all of them from `among`;
* `Pass opens`             one pass over a list of pending elements: an element that opens with those
                           opened before it, in this pass or earlier, is opened at once;
* `Passes opens`           passes over what is left, until nothing is left or nothing opens;
* `Passes.perm_least`      what a pass for `base` and then passes for `via` have opened is `least`, in
                           whatever order the elements stood.
-/

set_option linter.unusedVariables false

namespace Closure

section
variable {α : Type} {among : Set α} {base : α → Prop} {via : α → α → Prop} {x y : α}

/-! ## the least closed set -/

def grow (among : Set α) (base : α → Prop) (via : α → α → Prop) : Set α →o Set α where
  toFun S := {x | x ∈ among ∧ (base x ∨ ∃ y ∈ S, via y x)}
  monotone' := by
    intro S T hST x hx
    obtain ⟨hamong, hbase | ⟨y, hy, hvia⟩⟩ := hx
    · exact ⟨hamong, .inl hbase⟩
    · exact ⟨hamong, .inr ⟨y, hST hy, hvia⟩⟩

def least (among : Set α) (base : α → Prop) (via : α → α → Prop) : Set α :=
  (grow among base via).lfp

theorem mem_least :
    x ∈ least among base via ↔ x ∈ among ∧ (base x ∨ ∃ y ∈ least among base via, via y x) := by
  have hfix : grow among base via (least among base via) = least among base via :=
    (grow among base via).map_lfp
  constructor
  · intro hx
    rw [← hfix] at hx
    exact hx
  · intro hx
    rw [← hfix]
    exact hx

/-- induction: a set that is closed under the rules contains `least` -/
theorem least_subset {S : Set α} (hbase : ∀ x ∈ among, base x → x ∈ S)
    (hvia : ∀ x ∈ among, ∀ y ∈ S, via y x → x ∈ S) : least among base via ⊆ S := by
  refine (grow among base via).lfp_le fun x hx => ?_
  obtain ⟨hamong, hb | ⟨y, hy, hv⟩⟩ := hx
  · exact hbase x hamong hb
  · exact hvia x hamong y hy hv

end

/-! ## passes -/

section
variable {α : Type} {opens : List α → α → Prop} {done done' pending left : List α}

inductive Pass (opens : List α → α → Prop) : (done pending done' left : List α) → Prop
  | nil (d) : Pass opens d [] d []
  | opened {d x p d' l} (h : opens d x) (rest : Pass opens (d ++ [x]) p d' l) :
      Pass opens d (x :: p) d' l
  | kept {d x p d' l} (h : ¬opens d x) (rest : Pass opens d p d' l) :
      Pass opens d (x :: p) d' (x :: l)

inductive Passes (opens : List α → α → Prop) : (done pending done' left : List α) → Prop
  | stop {d p} (h : p = [] ∨ d = []) : Passes opens d p d p
  | last {d p l} (h : Pass opens d p d l) : Passes opens d p d l
  | more {d p d' l d'' l'} (h : Pass opens d p d' l) (rest : Passes opens d' l d'' l') :
      Passes opens d p d'' l'

/-- nothing is lost -/
theorem Pass.perm (h : Pass opens done pending done' left) :
    (done' ++ left).Perm (done ++ pending) := by
  induction h with
  | nil => rfl
  | opened h rest ih => simpa using ih
  | kept h rest ih => exact (List.perm_middle.trans (ih.cons _)).trans List.perm_middle.symm

theorem Pass.left_subset (h : Pass opens done pending done' left) : left ⊆ pending := by
  induction h with
  | nil => exact List.Subset.refl _
  | opened h rest ih => exact fun x hx => List.mem_cons_of_mem _ (ih hx)
  | kept h rest ih => exact List.cons_subset_cons _ ih

theorem Pass.length_le (h : Pass opens done pending done' left) : done.length ≤ done'.length := by
  induction h with
  | nil => rfl
  | opened h rest ih =>
    rw [List.length_append, List.length_singleton] at ih
    omega
  | kept h rest ih => exact ih

theorem Pass.sound {S : Set α} (h : Pass opens done pending done' left)
    (hopens : ∀ done, (∀ y ∈ done, y ∈ S) → ∀ x ∈ pending, opens done x → x ∈ S)
    (hdone : ∀ y ∈ done, y ∈ S) : ∀ y ∈ done', y ∈ S := by
  induction h with
  | nil => exact hdone
  | @opened done x pending done' left h rest ih =>
    have hx : x ∈ S := hopens done hdone x List.mem_cons_self h
    refine ih (fun d hd x hx => hopens d hd x (List.mem_cons_of_mem _ hx)) fun y hy => ?_
    rcases List.mem_append.mp hy with hy | hy
    · exact hdone y hy
    · rw [List.mem_singleton.mp hy]
      exact hx
  | kept h rest ih => exact ih (fun d hd x hx => hopens d hd x (List.mem_cons_of_mem _ hx)) hdone

theorem Pass.unchanged_of_eq (h : Pass opens done pending done' left) (hdone : done' = done) :
    ∀ x ∈ left, ¬opens done x := by
  induction h with
  | nil => exact List.forall_mem_nil _
  | opened h rest ih =>
    have hlen := rest.length_le
    rw [hdone, List.length_append, List.length_singleton] at hlen
    omega
  | kept h rest ih =>
    intro y hy
    rcases List.mem_cons.mp hy with rfl | hy
    · exact h
    · exact ih hdone y hy

/-- after a pass that opened nothing, nothing opens -/
theorem Pass.unchanged (h : Pass opens done pending done left) : ∀ x ∈ left, ¬opens done x :=
  h.unchanged_of_eq rfl

/-- a pass for a property of the element alone -/
theorem Pass.direct {base : α → Prop} (h : Pass (fun _ => base) done pending done' left) :
    ∀ x ∈ left, ¬base x := by
  induction h with
  | nil => exact List.forall_mem_nil _
  | opened h rest ih => exact ih
  | kept h rest ih =>
    intro y hy
    rcases List.mem_cons.mp hy with rfl | hy
    · exact h
    · exact ih y hy

theorem Passes.perm (h : Passes opens done pending done' left) :
    (done' ++ left).Perm (done ++ pending) := by
  induction h with
  | stop => rfl
  | last h => exact h.perm
  | more h rest ih => exact ih.trans h.perm

theorem Passes.left_subset (h : Passes opens done pending done' left) : left ⊆ pending := by
  induction h with
  | stop => exact List.Subset.refl _
  | last h => exact h.left_subset
  | more h rest ih => exact List.Subset.trans ih h.left_subset

theorem Passes.sound {S : Set α} (h : Passes opens done pending done' left)
    (hopens : ∀ done, (∀ y ∈ done, y ∈ S) → ∀ x ∈ pending, opens done x → x ∈ S)
    (hdone : ∀ y ∈ done, y ∈ S) : ∀ y ∈ done', y ∈ S := by
  induction h with
  | stop => exact hdone
  | last => exact hdone
  | more h rest ih =>
    exact ih (fun d hd x hx => hopens d hd x (h.left_subset hx)) (h.sound hopens hdone)

/-- what is left opens no more -/
theorem Passes.closed (h : Passes opens done pending done' left) (hnil : ∀ x, ¬opens [] x) :
    ∀ x ∈ left, ¬opens done' x := by
  induction h with
  | stop h =>
    rcases h with rfl | rfl
    · exact List.forall_mem_nil _
    · exact fun x _ => hnil x
  | last h => exact h.unchanged
  | more h rest ih => exact ih

end

section
variable {α : Type} {base : α → Prop} {via : α → α → Prop} {all done pending done' left : List α}

theorem Passes.exact (h₀ : Pass (fun _ => base) [] all done pending)
    (h : Passes (fun done x => ∃ y ∈ done, via y x) done pending done' left) :
    (done' ++ left).Perm all ∧ (∀ x ∈ done', x ∈ least {x | x ∈ all} base via) ∧
      ∀ x ∈ left, x ∉ least {x | x ∈ all} base via := by
  have hperm : (done' ++ left).Perm all := h.perm.trans h₀.perm
  have hdone : ∀ x ∈ done, x ∈ least {x | x ∈ all} base via :=
    h₀.sound (fun d hd x hx hbase => mem_least.mpr ⟨hx, .inl hbase⟩) (List.forall_mem_nil _)
  have hdone' : ∀ x ∈ done', x ∈ least {x | x ∈ all} base via := by
    refine h.sound (fun d hd x hx hopens => ?_) hdone
    obtain ⟨y, hy, hvia⟩ := hopens
    exact mem_least.mpr ⟨h₀.left_subset hx, .inr ⟨y, hd y hy, hvia⟩⟩
  -- an element that is left is neither in `base` nor led to by one that is open
  have hvia : ∀ x ∈ left, ¬∃ y ∈ done', via y x :=
    h.closed fun x hx => by
      obtain ⟨y, hy, _⟩ := hx
      exact List.not_mem_nil hy
  have hbase : ∀ x ∈ left, ¬base x := fun x hx => h₀.direct x (h.left_subset hx)
  have hsub : least {x | x ∈ all} base via ⊆ {x | x ∈ done'} := by
    refine least_subset (fun x hx hb => ?_) fun x hx y hy hv => ?_
    · rcases List.mem_append.mp (hperm.symm.subset hx) with hx' | hx'
      · exact hx'
      · exact absurd hb (hbase x hx')
    · rcases List.mem_append.mp (hperm.symm.subset hx) with hx' | hx'
      · exact hx'
      · exact absurd ⟨y, hy, hv⟩ (hvia x hx')
  refine ⟨hperm, hdone', fun x hx hleast => ?_⟩
  obtain ⟨_, hb | ⟨y, hy, hv⟩⟩ := mem_least.mp hleast
  · exact hbase x hx hb
  · exact hvia x hx ⟨y, hsub hy, hv⟩

/-- what was opened are the elements of the least set, each as often as it was given -/
theorem Passes.perm_least (h₀ : Pass (fun _ => base) [] all done pending)
    (h : Passes (fun done x => ∃ y ∈ done, via y x) done pending done' left)
    [DecidablePred (· ∈ least {x | x ∈ all} base via)] :
    done'.Perm (all.filter (· ∈ least {x | x ∈ all} base via)) := by
  obtain ⟨hperm, hdone, hleft⟩ := Passes.exact h₀ h
  refine List.Perm.trans ?_ (hperm.filter _)
  rw [List.filter_append, List.filter_eq_self.mpr fun x hx => decide_eq_true (hdone x hx),
    List.filter_eq_nil_iff.mpr fun x hx => by simpa using hleft x hx, List.append_nil]

end

end Closure
