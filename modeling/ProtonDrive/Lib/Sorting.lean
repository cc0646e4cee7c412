import Mathlib.Data.List.Nodup
import Mathlib.Data.List.Sort

/-!
# Stable sorting

* `firstBy p le`           the items with `p` before the others, and within each group by `le`;
* `sortBy le`              `slice::sort_by`: items that `le` does not tell apart keep their order;
* `sortBy_perm`, `sortBy_pairwise`
                           it permutes the list and puts it in order;
* `sortByKey`              `slice::sort_by_key`: equal keys keep their order;
* `sortByKey_perm`, `sortByKey_pairwise`
                           it permutes the list and puts the keys in order;
* `filter_sortByKey`       it is stable;
* `sortByKey_of_perm`      what it makes of a list with distinct keys is known from the items alone;
* `map_key_sortByKey`      the keys of the sorted list are the sorted keys.
-/

set_option linter.unusedVariables false

namespace Sorting

/-! ## by a comparison -/

section
variable {α : Type}

/-- a comparison that can tell of any two items which may come first -/
structure Compares (le : α → α → Bool) : Prop where
  total : ∀ a b, le a b = true ∨ le b a = true
  trans : ∀ {a b c}, le a b = true → le b c = true → le a c = true

def firstBy (p : α → Bool) (le : α → α → Bool) (a b : α) : Bool :=
  match p a, p b with
  | true, false => true
  | false, true => false
  | _, _ => le a b

variable {le : α → α → Bool}

theorem Compares.firstBy (h : Compares le) (p : α → Bool) : Compares (firstBy p le) where
  total a b := by
    have hle := h.total a b
    unfold Sorting.firstBy
    cases p a <;> cases p b <;> simp [hle]
  trans {a b c} hab hbc := by
    unfold Sorting.firstBy at hab hbc ⊢
    -- two comparisons with different groups in them settle the third
    cases ha : p a <;> cases hb : p b <;> cases hc : p c <;>
      simp only [ha, hb, hc, Bool.false_eq_true] at hab hbc ⊢
    · exact h.trans hab hbc
    · exact h.trans hab hbc

def sortBy (le : α → α → Bool) (l : List α) : List α := l.insertionSort fun a b => le a b = true

theorem sortBy_perm (le : α → α → Bool) (l : List α) : (sortBy le l).Perm l :=
  List.perm_insertionSort _ l

@[simp] theorem mem_sortBy {l : List α} {a : α} : a ∈ sortBy le l ↔ a ∈ l :=
  (sortBy_perm le l).mem_iff

@[simp] theorem length_sortBy (l : List α) : (sortBy le l).length = l.length :=
  (sortBy_perm le l).length_eq

theorem sortBy_pairwise (h : Compares le) (l : List α) :
    (sortBy le l).Pairwise fun a b => le a b = true := by
  have htotal : Std.Total fun a b => le a b = true := ⟨h.total⟩
  have htrans : IsTrans α fun a b => le a b = true := ⟨fun _ _ _ => h.trans⟩
  exact List.pairwise_insertionSort _ l

end

/-! ## by a numeric key -/

section
variable {α : Type} (key : α → Nat)

/-- order by key -/
def KeyLE (a b : α) : Prop := key a ≤ key b

instance : DecidableRel (KeyLE key) := fun a b => inferInstanceAs (Decidable (key a ≤ key b))
instance : Std.Total (KeyLE key) := ⟨fun a b => Nat.le_total (key a) (key b)⟩
instance : IsTrans α (KeyLE key) := ⟨fun _ _ _ => Nat.le_trans⟩

def sortByKey (l : List α) : List α := l.insertionSort (KeyLE key)

theorem sortByKey_perm (l : List α) : (sortByKey key l).Perm l :=
  List.perm_insertionSort (KeyLE key) l

theorem sortByKey_pairwise (l : List α) : (sortByKey key l).Pairwise (KeyLE key) :=
  List.pairwise_insertionSort (KeyLE key) l

theorem filter_orderedInsert (k : Nat) (a : α) (l : List α) :
    (l.orderedInsert (KeyLE key) a).filter (key · = k) = (a :: l).filter (key · = k) := by
  induction l with
  | nil => rfl
  | cons b l ih =>
    by_cases hab : KeyLE key a b
    · rw [List.orderedInsert_cons, if_pos hab]
    · rw [List.orderedInsert_cons, if_neg hab, List.filter_cons, ih]
      have hlt : key b < key a := Nat.lt_of_not_le hab
      by_cases hb : key b = k
      · have ha : key a ≠ k := by omega
        simp [ha, hb]
      · simp [hb, List.filter_cons]

/-- items of one key keep their order -/
theorem filter_sortByKey (k : Nat) (l : List α) :
    (sortByKey key l).filter (key · = k) = l.filter (key · = k) := by
  induction l with
  | nil => rfl
  | cons a l ih =>
    show ((sortByKey key l).orderedInsert (KeyLE key) a).filter (key · = k) = _
    rw [filter_orderedInsert]
    simp only [List.filter_cons, ih]

@[simp] theorem mem_sortByKey {l : List α} {a : α} : a ∈ sortByKey key l ↔ a ∈ l :=
  (sortByKey_perm key l).mem_iff

@[simp] theorem length_sortByKey (l : List α) : (sortByKey key l).length = l.length :=
  (sortByKey_perm key l).length_eq

/-- in a list with increasing keys, equal keys mean equal items -/
theorem eq_of_key_eq {m : List α} (hm : m.Pairwise fun a b => key a < key b) {a b : α}
    (ha : a ∈ m) (hb : b ∈ m) (h : key a = key b) : a = b := by
  have hnd : (m.map key).Nodup := List.pairwise_map.mpr (hm.imp fun h => Nat.ne_of_lt h)
  exact List.inj_on_of_nodup_map hnd ha hb h

theorem sortByKey_of_perm {l m : List α} (h : l.Perm m)
    (hm : m.Pairwise fun a b => key a < key b) : sortByKey key l = m := by
  have hp : (sortByKey key l).Perm m := (sortByKey_perm key l).trans h
  have hle : m.Pairwise (KeyLE key) := hm.imp fun h => Nat.le_of_lt h
  refine hp.eq_of_pairwise ?_ (sortByKey_pairwise key l) hle
  intro a b ha hb hab hba
  exact eq_of_key_eq key hm (hp.subset ha) hb (Nat.le_antisymm hab hba)

theorem map_key_sortByKey {l : List α} {keys : List Nat} (h : (l.map key).Perm keys)
    (hk : keys.Pairwise (· < ·)) : (sortByKey key l).map key = keys := by
  have hp : ((sortByKey key l).map key).Perm keys := ((sortByKey_perm key l).map key).trans h
  have hs : ((sortByKey key l).map key).Pairwise (· ≤ ·) :=
    List.pairwise_map.mpr (sortByKey_pairwise key l)
  have hle : keys.Pairwise (· ≤ ·) := hk.imp fun h => Nat.le_of_lt h
  refine hp.eq_of_pairwise ?_ hs hle
  intro a b _ _ hab hba
  exact Nat.le_antisymm hab hba

/-- lists that agree as labelled collections, with distinct labels, agree once sorted -/
theorem map_sortByKey_eq {β γ : Type} {f : α → γ} {g : β → γ} {k : γ → Nat} {key' : β → Nat}
    (hf : ∀ a, k (f a) = key a) (hg : ∀ b, k (g b) = key' b) {l : List α} {m : List β}
    (h : (l.map f).Perm (m.map g)) (hm : (m.map key').Nodup) :
    (sortByKey key l).map f = (sortByKey key' m).map g := by
  have hp : ((sortByKey key l).map f).Perm ((sortByKey key' m).map g) :=
    (((sortByKey_perm key l).map f).trans h).trans ((sortByKey_perm key' m).map g).symm
  have hl : ((sortByKey key l).map f).Pairwise (KeyLE k) :=
    List.pairwise_map.mpr ((sortByKey_pairwise key l).imp fun hab => by
      show k _ ≤ k _
      rw [hf, hf]
      exact hab)
  have hr : ((sortByKey key' m).map g).Pairwise (KeyLE k) :=
    List.pairwise_map.mpr ((sortByKey_pairwise key' m).imp fun hab => by
      show k _ ≤ k _
      rw [hg, hg]
      exact hab)
  refine hp.eq_of_pairwise ?_ hl hr
  intro a b ha hb hab hba
  obtain ⟨x, hx, rfl⟩ := List.mem_map.mp (hp.subset ha)
  obtain ⟨y, hy, rfl⟩ := List.mem_map.mp hb
  have hkey : key' x = key' y := by
    rw [← hg, ← hg]
    exact Nat.le_antisymm hab hba
  exact congrArg g (List.inj_on_of_nodup_map hm ((mem_sortByKey key').mp hx)
    ((mem_sortByKey key').mp hy) hkey)

end

end Sorting
