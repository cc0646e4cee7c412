import Mathlib.Data.Finset.Card
import Mathlib.Data.List.Nodup
import Mathlib.Data.List.Range

/-!
# Orbits of a partial function

* `orbit f a n`          where `n` steps of `f` lead from `a`, if they lead anywhere;
* `NeverBack f a`        the orbit never comes back to a place where it was;
* `neverBack_of_ends`    an orbit that ends never comes back;
* `ends_of_neverBack`    over finitely many places an orbit that never comes back ends;
* `trail f a k`          the places of the first `k` steps.
-/

namespace Orbits

variable {α : Type} (f : α → Option α)

def orbit (a : α) : Nat → Option α
  | 0 => some a
  | n + 1 => (orbit a n).bind f

def NeverBack (a : α) : Prop :=
  ∀ i j b, orbit f a i = some b → orbit f a j = some b → i = j

/-- the places of the first `k` steps, in their order -/
def trail (a : α) (k : Nat) : List α := (List.range k).filterMap (orbit f a)

variable {f} {a b c : α}

theorem orbit_add (i j : Nat) : orbit f a (i + j) = (orbit f a i).bind fun b => orbit f b j := by
  induction j with
  | zero =>
    show orbit f a i = (orbit f a i).bind some
    cases orbit f a i <;> rfl
  | succ j ih =>
    show (orbit f a (i + j)).bind f = _
    rw [ih, Option.bind_assoc]
    rfl

theorem orbit_succ (n : Nat) : orbit f a (n + 1) = (f a).bind fun b => orbit f b n := by
  rw [Nat.add_comm, orbit_add]
  rfl

theorem orbit_none_add {i : Nat} (h : orbit f a i = none) (j : Nat) : orbit f a (i + j) = none := by
  rw [orbit_add, h, Option.bind_none]

/-- an orbit that comes back to its start after `p` steps goes round for ever -/
theorem orbit_round {p : Nat} (h : orbit f a p = some a) (k : Nat) : orbit f a (k * p) = some a := by
  induction k with
  | zero =>
    rw [Nat.zero_mul]
    rfl
  | succ k ih => rw [Nat.succ_mul, orbit_add, ih, Option.bind_some, h]

theorem neverBack_of_ends {n : Nat} (h : orbit f a n = none) : NeverBack f a := by
  -- a place met again at a later step would be met at arbitrarily late steps
  have hlate : ∀ i p b, orbit f a i = some b → orbit f a (i + (p + 1)) = some b → False := by
    intro i p b hi hj
    rw [orbit_add, hi, Option.bind_some] at hj
    have hround := orbit_round hj n
    have hsome : orbit f a (i + n * (p + 1)) = some b := by rw [orbit_add, hi, Option.bind_some, hround]
    have hle : n ≤ i + n * (p + 1) :=
      Nat.le_trans (Nat.le_mul_of_pos_right n (Nat.succ_pos p)) (Nat.le_add_left _ i)
    obtain ⟨m, hm⟩ := Nat.exists_eq_add_of_le hle
    rw [hm, orbit_none_add h] at hsome
    cases hsome
  intro i j b hi hj
  rcases Nat.lt_trichotomy i j with hlt | heq | hlt
  · obtain ⟨p, rfl⟩ := Nat.exists_eq_add_of_lt hlt
    exact (hlate i p b hi hj).elim
  · exact heq
  · obtain ⟨p, rfl⟩ := Nat.exists_eq_add_of_lt hlt
    exact (hlate j p b hj hi).elim

theorem NeverBack.trail_nodup (h : NeverBack f a) (k : Nat) : (trail f a k).Nodup :=
  List.Nodup.filterMap (fun i j b hi hj => h i j b hi hj) List.nodup_range

theorem orbit_mem {s : Finset α} (hs : ∀ b ∈ s, ∀ c, f b = some c → c ∈ s) (ha : a ∈ s)
    {n : Nat} (h : orbit f a n = some b) : b ∈ s := by
  induction n generalizing b with
  | zero =>
    cases h
    exact ha
  | succ n ih =>
    obtain ⟨c, hc, hb⟩ := Option.bind_eq_some_iff.mp h
    exact hs c (ih hc) b hb

theorem ends_of_neverBack (s : Finset α) (hs : ∀ b ∈ s, ∀ c, f b = some c → c ∈ s) (ha : a ∈ s)
    (h : NeverBack f a) : ∃ n, orbit f a n = none := by
  by_contra hgoes
  have hsome : ∀ n, ∃ b, orbit f a n = some b := by
    intro n
    exact Option.ne_none_iff_exists'.mp fun hnone => hgoes ⟨n, hnone⟩
  choose place hplace using hsome
  -- the first `s.card + 1` steps are at different places of `s`
  have hmaps : Set.MapsTo place (Finset.range (s.card + 1)) s :=
    fun n _ => orbit_mem hs ha (hplace n)
  have hcard : s.card < (Finset.range (s.card + 1)).card := by
    rw [Finset.card_range]
    exact Nat.lt_succ_self _
  obtain ⟨i, _, j, _, hne, heq⟩ := Finset.exists_ne_map_eq_of_card_lt_of_maps_to hcard hmaps
  exact hne (h i j (place i) (hplace i) (heq ▸ hplace j))

theorem trail_succ (k : Nat) : trail f a (k + 1) = a :: (f a).elim [] fun b => trail f b k := by
  unfold trail
  rw [List.range_succ_eq_map, List.filterMap_cons_some (show orbit f a 0 = some a from rfl),
    List.filterMap_map]
  cases hf : f a with
  | none =>
    have hnone : ∀ i ∈ List.range k, (orbit f a ∘ Nat.succ) i = none := by
      intro i _
      show orbit f a (i + 1) = none
      rw [orbit_succ, hf, Option.bind_none]
    rw [List.filterMap_eq_nil_iff.mpr hnone]
    rfl
  | some b =>
    have hnext : orbit f a ∘ Nat.succ = orbit f b := by
      funext i
      show orbit f a (i + 1) = _
      rw [orbit_succ, hf, Option.bind_some]
    rw [hnext]
    rfl

theorem trail_one : trail f a 1 = [a] := by
  rw [trail_succ]
  cases f a <;> rfl

theorem trail_length_le {n : Nat} (h : orbit f a n = none) (k : Nat) :
    (trail f a k).length ≤ n := by
  induction n generalizing a k with
  | zero => cases h
  | succ n ih =>
    cases k with
    | zero => exact Nat.zero_le _
    | succ k =>
      rw [trail_succ, List.length_cons]
      cases hf : f a with
      | none => exact Nat.succ_le_succ (Nat.zero_le n)
      | some b =>
        rw [orbit_succ, hf, Option.bind_some] at h
        exact Nat.succ_le_succ (ih h k)

end Orbits
