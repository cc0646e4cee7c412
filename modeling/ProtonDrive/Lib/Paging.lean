import Mathlib.Data.List.Basic

/-!
# Lists that are read in pages

* `page n xs p`        the page `p` of a list that is cut into pages of `n`;
* `rest n xs p`        what is left of the list in front of the page `p`;
* `lastPage n len`     the number of the last page of a list of length `len`; the empty list has one.
-/

namespace Paging

section
variable {α : Type} {n p : Nat} {xs : List α}

def rest (n : Nat) (xs : List α) (p : Nat) : List α := xs.drop (p * n)

def page (n : Nat) (xs : List α) (p : Nat) : List α := (rest n xs p).take n

def lastPage (n len : Nat) : Nat := (len - 1) / n

theorem rest_zero : rest n xs 0 = xs := by
  unfold rest
  rw [Nat.zero_mul]
  exact List.drop_zero

theorem page_append_rest : page n xs p ++ rest n xs (p + 1) = rest n xs p := by
  have hnext : rest n xs (p + 1) = (rest n xs p).drop n := by
    unfold rest
    rw [List.drop_drop, Nat.succ_mul]
  rw [hnext]
  exact List.take_append_drop n (rest n xs p)

theorem rest_eq_nil (h : xs.length ≤ p * n) : rest n xs p = [] := List.drop_eq_nil_of_le h

/-- the last page ends the list -/
theorem page_last (h : xs.length ≤ (p + 1) * n) : page n xs p = rest n xs p := by
  rw [← page_append_rest, rest_eq_nil h, List.append_nil]

theorem le_lastPage (hn : 1 ≤ n) (len : Nat) : len ≤ (lastPage n len + 1) * n := by
  have hlt : len - 1 < (lastPage n len + 1) * n := by
    rw [Nat.mul_comm]
    exact Nat.lt_mul_div_succ (len - 1) hn
  omega

/-- as many pages as there is room for -/
theorem lastPage_lt {len m : Nat} (hn : 1 ≤ n) (hm : 1 ≤ m) (h : len ≤ m * n) :
    lastPage n len < m := by
  have hpos : 0 < m * n := Nat.mul_pos hm hn
  unfold lastPage
  rw [Nat.div_lt_iff_lt_mul hn]
  omega

end

end Paging
