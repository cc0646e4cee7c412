import Mathlib.Data.List.Basic

/-!
# Chunks of a fixed size

* `Exact n cs`          every chunk of `cs` has `n` elements but the last, which has from 1 to `n`;
* `exists_exact`        every list can be cut in this way;
* `Exact.unique`        and in one way only;
* `Exact.take_length`, `Exact.length_lt`
                        how much the first chunks hold, and how many there are.
-/

namespace Chunking

structure Exact {α : Type} (n : Nat) (cs : List (List α)) : Prop where
  full : ∀ c ∈ cs.dropLast, c.length = n
  last : ∀ c ∈ cs.getLast?, 1 ≤ c.length ∧ c.length ≤ n

section
variable {α : Type} {n : Nat} {c : List α} {cs ds : List (List α)}

theorem exact_nil : Exact n ([] : List (List α)) where
  full := by simp
  last := by simp

theorem exact_singleton : Exact n [c] ↔ 1 ≤ c.length ∧ c.length ≤ n := by
  constructor
  · intro h
    exact h.last c rfl
  · intro h
    exact ⟨by simp, by simpa using h⟩

theorem exact_cons_cons {d : List α} :
    Exact n (c :: d :: cs) ↔ c.length = n ∧ Exact n (d :: cs) := by
  constructor
  · intro h
    have hfull := h.full
    have hlast := h.last
    rw [List.dropLast_cons_cons] at hfull
    rw [List.getLast?_cons_cons] at hlast
    exact ⟨hfull c List.mem_cons_self, fun x hx => hfull x (List.mem_cons_of_mem _ hx), hlast⟩
  · intro h
    obtain ⟨hc, hfull, hlast⟩ := h
    refine ⟨?_, ?_⟩
    · rw [List.dropLast_cons_cons]
      exact List.forall_mem_cons.mpr ⟨hc, hfull⟩
    · rw [List.getLast?_cons_cons]
      exact hlast

theorem Exact.tail (h : Exact n (c :: cs)) : Exact n cs := by
  cases cs with
  | nil => exact exact_nil
  | cons d cs => exact (exact_cons_cons.mp h).2

/-- a full chunk in front -/
theorem Exact.cons (hn : 0 < n) (hc : c.length = n) (h : Exact n cs) : Exact n (c :: cs) := by
  cases cs with
  | nil =>
    rw [exact_singleton]
    omega
  | cons d cs => exact exact_cons_cons.mpr ⟨hc, h⟩

theorem Exact.head_length (hn : 0 < n) (h : Exact n (c :: cs)) : 1 ≤ c.length ∧ c.length ≤ n := by
  cases cs with
  | nil => exact exact_singleton.mp h
  | cons d cs =>
    have hc := (exact_cons_cons.mp h).1
    omega

/-- only the last chunk is short -/
theorem Exact.of_short (h : Exact n (c :: cs)) (hc : c.length < n) : cs = [] := by
  cases cs with
  | nil => rfl
  | cons d cs =>
    have hfull := (exact_cons_cons.mp h).1
    omega

/-- chunks that are the values of a function -/
theorem Exact.of_map_cons {β : Type} {f : β → List α} {b : β} {bs : List β} (hn : 0 < n)
    (h : Exact n ((b :: bs).map f)) :
    f b ≠ [] ∧ (f b).length ≤ n ∧ Exact n (bs.map f) ∧ ((f b).length < n → bs = []) := by
  have hlength := h.head_length hn
  refine ⟨List.ne_nil_of_length_pos hlength.1, hlength.2, h.tail, fun hshort => ?_⟩
  exact List.map_eq_nil_iff.mp (h.of_short hshort)

theorem Exact.take_flatten (hn : 0 < n) (h : Exact n (c :: cs)) : (c :: cs).flatten.take n = c := by
  have hle := (h.head_length hn).2
  rw [List.flatten_cons]
  by_cases hc : c.length = n
  · rw [← hc]
    exact List.take_left
  · rw [h.of_short (by omega), List.flatten_nil, List.append_nil]
    exact List.take_of_length_le hle

theorem Exact.drop_flatten (hn : 0 < n) (h : Exact n (c :: cs)) :
    (c :: cs).flatten.drop n = cs.flatten := by
  have htake := h.take_flatten hn
  have hsplit := List.take_append_drop n (c :: cs).flatten
  rw [htake] at hsplit
  exact List.append_cancel_left (hsplit.trans List.flatten_cons)

theorem Exact.flatten_ne_nil (hn : 0 < n) (h : Exact n (c :: cs)) : (c :: cs).flatten ≠ [] := by
  intro hnil
  have hc := (h.head_length hn).1
  rw [List.flatten_cons] at hnil
  rw [(List.append_eq_nil_iff.mp hnil).1] at hc
  exact absurd hc (by simp)

/-- the first chunks hold as much as they can -/
theorem Exact.take_length (hn : 0 < n) (h : Exact n cs) (k : Nat) :
    (cs.take k).flatten.length = min (k * n) cs.flatten.length := by
  induction cs generalizing k with
  | nil => simp
  | cons c cs ih =>
    cases k with
    | zero => simp
    | succ k =>
      have hlength := h.head_length hn
      have htail := ih h.tail k
      rw [List.take_succ_cons, List.flatten_cons, List.length_append, htail, List.flatten_cons,
        List.length_append, Nat.succ_mul]
      by_cases hc : c.length = n
      · omega
      · rw [h.of_short (by omega), List.flatten_nil, List.length_nil]
        omega

/-- how many chunks there are -/
theorem Exact.length_lt (hn : 0 < n) (h : Exact n cs) : cs.length * n < cs.flatten.length + n := by
  induction cs with
  | nil => simpa using hn
  | cons c cs ih =>
    have hlength := h.head_length hn
    have htail := ih h.tail
    rw [List.length_cons, Nat.succ_mul, List.flatten_cons, List.length_append]
    by_cases hc : c.length = n
    · omega
    · rw [h.of_short (by omega), List.length_nil, Nat.zero_mul]
      omega

/-- a list can be cut in one way only -/
theorem Exact.unique (hn : 0 < n) (h : Exact n cs) (h' : Exact n ds)
    (heq : cs.flatten = ds.flatten) : cs = ds := by
  induction cs generalizing ds with
  | nil =>
    cases ds with
    | nil => rfl
    | cons d ds => exact absurd heq.symm (h'.flatten_ne_nil hn)
  | cons c cs ih =>
    cases ds with
    | nil => exact absurd heq (h.flatten_ne_nil hn)
    | cons d ds =>
      have hhead : c = d := by rw [← h.take_flatten hn, heq, h'.take_flatten hn]
      have htail : cs.flatten = ds.flatten := by
        rw [← h.drop_flatten hn, heq, h'.drop_flatten hn]
      rw [hhead, ih h.tail h'.tail htail]

/-- every list can be cut -/
theorem exists_exact (hn : 0 < n) (l : List α) : ∃ cs, Exact n cs ∧ cs.flatten = l := by
  -- on the length, since a chunk is taken off at a time
  induction hlen : l.length using Nat.strongRecOn generalizing l with
  | ind m ih =>
    by_cases hnil : l = []
    · exact ⟨[], exact_nil, hnil.symm⟩
    · have hpos := List.length_pos_of_ne_nil hnil
      by_cases hle : l.length ≤ n
      · exact ⟨[l], exact_singleton.mpr ⟨hpos, hle⟩, by simp⟩
      · have hdrop : (l.drop n).length < m := by
          rw [List.length_drop]
          omega
        have htake : (l.take n).length = n := by
          rw [List.length_take]
          omega
        obtain ⟨cs, hcs, hflat⟩ := ih _ hdrop (l.drop n) rfl
        refine ⟨l.take n :: cs, hcs.cons hn htake, ?_⟩
        rw [List.flatten_cons, hflat, List.take_append_drop]

end

end Chunking
