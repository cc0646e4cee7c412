import Mathlib

/-!
# Cyclic redundancy checks

A number is the polynomial over the field of two elements whose coefficients are its bits.

* `poly`             that polynomial: exclusive or adds, a shift multiplies by a power of `X`;
* `shift`, `feed`, `crc`   the register of a check: a shift, the bits of a byte, the bytes of a text;
* `poly_crc`         the register holds a remainder: of the text times `X ^ width`, and of the
                     initial register in front of it, by the generator.
-/

namespace Crc
open Polynomial

/-! ## bits as coefficients -/

@[irreducible] noncomputable def poly (n : Nat) : (ZMod 2)[X] :=
  ∑ i ∈ Finset.range n, if n.testBit i then X ^ i else 0

theorem coeff_poly (n i : Nat) : (poly n).coeff i = if n.testBit i then 1 else 0 := by
  unfold poly
  rw [finsetSum_coeff]
  by_cases hi : i < n
  · rw [Finset.sum_eq_single_of_mem i (Finset.mem_range.mpr hi)]
    · split
      · exact coeff_X_pow_self i
      · exact coeff_zero i
    · intro j _ hj
      split
      · rw [coeff_X_pow, if_neg hj.symm]
      · exact coeff_zero i
  · have hbit : n.testBit i = false :=
      Nat.testBit_lt_two_pow (Nat.lt_of_lt_of_le Nat.lt_two_pow_self
        (Nat.pow_le_pow_right (by decide) (Nat.le_of_not_lt hi)))
    rw [hbit, if_neg Bool.false_ne_true]
    refine Finset.sum_eq_zero fun j hj => ?_
    have hj := Finset.mem_range.mp hj
    split
    · rw [coeff_X_pow, if_neg (by omega)]
    · exact coeff_zero i

theorem poly_xor (a b : Nat) : poly (a ^^^ b) = poly a + poly b := by
  ext i
  rw [coeff_add, coeff_poly, coeff_poly, coeff_poly, Nat.testBit_xor]
  cases a.testBit i <;> cases b.testBit i <;> rfl

theorem poly_shiftLeft (n k : Nat) : poly (n <<< k) = X ^ k * poly n := by
  ext i
  rw [coeff_X_pow_mul', coeff_poly, Nat.testBit_shiftLeft]
  by_cases h : k ≤ i
  · rw [if_pos h, coeff_poly, decide_eq_true h, Bool.true_and]
  · rw [if_neg h, decide_eq_false h, Bool.false_and, if_neg Bool.false_ne_true]

theorem degree_poly {n w : Nat} (h : n < 2 ^ w) : (poly n).degree < w := by
  refine (degree_lt_iff_coeff_zero _ _).mpr fun i hi => ?_
  have hbit : n.testBit i = false :=
    Nat.testBit_lt_two_pow (Nat.lt_of_lt_of_le h (Nat.pow_le_pow_right (by decide) hi))
  rw [coeff_poly, hbit]
  rfl

/-- a number with bit `w` and none above it is a monic polynomial of degree `w` -/
theorem monic_poly {g w : Nat} (hbit : g.testBit w = true) (h : g < 2 ^ (w + 1)) :
    (poly g).Monic := by
  refine monic_of_natDegree_le_of_coeff_eq_one w ?_ ?_
  · have hdegree := degree_poly h
    exact natDegree_le_iff_degree_le.mpr (Order.le_of_lt_succ hdegree)
  · rw [coeff_poly, hbit]
    rfl

/-! ## the register -/

/-- the register of a check of a width, and its generator -/
structure Generator where
  width : Nat
  bits : Nat
  /-- a byte goes into the upper end of the register -/
  byteFits : 8 ≤ width
  top : bits.testBit width = true
  fits : bits < 2 ^ (width + 1)

namespace Generator
variable (g : Generator)

noncomputable def modulus : (ZMod 2)[X] := poly g.bits

theorem monic : g.modulus.Monic := monic_poly g.top g.fits

def shift (r : Nat) : Nat :=
  let r := r <<< 1
  if r.testBit g.width then r ^^^ g.bits else r

/-- a byte, bit by bit -/
def feed (r : Nat) (b : UInt8) : Nat := Nat.repeat g.shift 8 (r ^^^ b.toNat <<< (g.width - 8))

def crc (init : Nat) (bs : List UInt8) : Nat := bs.foldl g.feed init

variable {g}

theorem shift_lt {r : Nat} (h : r < 2 ^ g.width) : g.shift r < 2 ^ g.width := by
  have hdouble : r <<< 1 < 2 ^ (g.width + 1) := by
    rw [Nat.shiftLeft_eq, Nat.pow_succ]
    omega
  unfold shift
  refine Nat.lt_pow_two_of_testBit _ fun i hi => ?_
  have habove (hne : i ≠ g.width) : (r <<< 1).testBit i = false ∧ g.bits.testBit i = false := by
    have hpow : 2 ^ (g.width + 1) ≤ 2 ^ i := Nat.pow_le_pow_right (by decide) (by omega)
    exact ⟨Nat.testBit_lt_two_pow (Nat.lt_of_lt_of_le hdouble hpow),
      Nat.testBit_lt_two_pow (Nat.lt_of_lt_of_le g.fits hpow)⟩
  by_cases htop : (r <<< 1).testBit g.width = true
  · simp only [htop, if_true, Nat.testBit_xor]
    by_cases hw : i = g.width
    · rw [hw, htop, g.top]
      rfl
    · rw [(habove hw).1, (habove hw).2]
      rfl
  · simp only [htop, Bool.false_eq_true, if_false]
    by_cases hw : i = g.width
    · rw [hw]
      exact Bool.eq_false_iff.mpr htop
    · exact (habove hw).1

/-- a shift multiplies by `X`, up to the generator -/
theorem shift_dvd (r : Nat) : g.modulus ∣ poly (g.shift r) - X * poly r := by
  have hdouble : poly (r <<< 1) = X * poly r := by rw [poly_shiftLeft, pow_one]
  unfold shift
  by_cases htop : (r <<< 1).testBit g.width = true
  · simp only [htop, if_true]
    rw [poly_xor, hdouble, add_sub_cancel_left]
    exact dvd_refl _
  · simp only [htop, Bool.false_eq_true, if_false]
    rw [hdouble, sub_self]
    exact dvd_zero _

theorem shifts (n : Nat) {r : Nat} (h : r < 2 ^ g.width) : Nat.repeat g.shift n r < 2 ^ g.width ∧
    g.modulus ∣ poly (Nat.repeat g.shift n r) - X ^ n * poly r := by
  induction n with
  | zero =>
    refine ⟨h, ?_⟩
    rw [pow_zero, one_mul]
    show g.modulus ∣ poly r - poly r
    rw [sub_self]
    exact dvd_zero _
  | succ n ih =>
    obtain ⟨hlt, hdvd⟩ := ih
    refine ⟨shift_lt hlt, ?_⟩
    have hstep := shift_dvd (g := g) (Nat.repeat g.shift n r)
    have hsum : poly (Nat.repeat g.shift (n + 1) r) - X ^ (n + 1) * poly r =
        (poly (g.shift (Nat.repeat g.shift n r)) - X * poly (Nat.repeat g.shift n r)) +
          X * (poly (Nat.repeat g.shift n r) - X ^ n * poly r) := by
      show poly (g.shift (Nat.repeat g.shift n r)) - _ = _
      ring
    rw [hsum]
    exact dvd_add hstep (Dvd.dvd.mul_left hdvd X)

theorem feed_spec {r : Nat} (h : r < 2 ^ g.width) (b : UInt8) : g.feed r b < 2 ^ g.width ∧
    g.modulus ∣ poly (g.feed r b) - (X ^ 8 * poly r + X ^ g.width * poly b.toNat) := by
  have hwidth : g.width = 8 + (g.width - 8) := by
    have := g.byteFits
    omega
  have hbyte : b.toNat <<< (g.width - 8) < 2 ^ g.width := by
    have hb : b.toNat < 2 ^ 8 := b.toNat_lt
    rw [Nat.shiftLeft_eq, hwidth, Nat.pow_add, Nat.add_sub_cancel_left]
    exact Nat.mul_lt_mul_of_pos_right hb (Nat.two_pow_pos _)
  obtain ⟨hlt, hdvd⟩ := shifts (g := g) 8 (Nat.xor_lt_two_pow h hbyte)
  refine ⟨hlt, ?_⟩
  have hsum : X ^ 8 * poly (r ^^^ b.toNat <<< (g.width - 8)) =
      X ^ 8 * poly r + X ^ g.width * poly b.toNat := by
    have hpow : (X : (ZMod 2)[X]) ^ g.width = X ^ 8 * X ^ (g.width - 8) := by
      rw [← pow_add, ← hwidth]
    rw [poly_xor, poly_shiftLeft, hpow]
    ring
  rw [← hsum]
  exact hdvd

/-! ## the remainder -/

/-- a text as the polynomial of its bits, the first one the highest -/
noncomputable def text : List UInt8 → (ZMod 2)[X]
  | [] => 0
  | b :: bs => X ^ (8 * bs.length) * poly b.toNat + text bs

theorem crc_spec {r : Nat} (h : r < 2 ^ g.width) (bs : List UInt8) : g.crc r bs < 2 ^ g.width ∧
    g.modulus ∣
      poly (g.crc r bs) - (X ^ (8 * bs.length) * poly r + X ^ g.width * text bs) := by
  induction bs generalizing r with
  | nil =>
    refine ⟨h, ?_⟩
    have hsame : poly (g.crc r []) - (X ^ (8 * ([] : List UInt8).length) * poly r +
        X ^ g.width * text []) = 0 := by
      show poly r - (X ^ 0 * poly r + X ^ g.width * 0) = 0
      ring
    rw [hsame]
    exact dvd_zero _
  | cons b bs ih =>
    obtain ⟨hfed, hbyte⟩ := feed_spec h b
    obtain ⟨hlt, hdvd⟩ := ih hfed
    refine ⟨hlt, ?_⟩
    have hsum : poly (g.crc r (b :: bs)) - (X ^ (8 * (b :: bs).length) * poly r +
          X ^ g.width * text (b :: bs)) =
        (poly (g.crc (g.feed r b) bs) - (X ^ (8 * bs.length) * poly (g.feed r b) +
          X ^ g.width * text bs)) + X ^ (8 * bs.length) * (poly (g.feed r b) -
            (X ^ 8 * poly r + X ^ g.width * poly b.toNat)) := by
      show poly (g.crc (g.feed r b) bs) - (X ^ (8 * (bs.length + 1)) * poly r +
        X ^ g.width * (X ^ (8 * bs.length) * poly b.toNat + text bs)) = _
      rw [Nat.mul_succ, pow_add]
      ring
    rw [hsum]
    exact dvd_add hdvd (Dvd.dvd.mul_left hbyte _)

/-- the register holds a remainder by the generator -/
theorem poly_crc {r : Nat} (h : r < 2 ^ g.width) (bs : List UInt8) : poly (g.crc r bs) =
    (X ^ (8 * bs.length) * poly r + X ^ g.width * text bs) %ₘ g.modulus := by
  obtain ⟨hlt, hdvd⟩ := crc_spec h bs
  have hdegree : (poly (g.crc r bs)).degree < g.modulus.degree := by
    have htop : (g.width : WithBot Nat) ≤ g.modulus.degree := by
      refine le_degree_of_ne_zero ?_
      show (poly g.bits).coeff g.width ≠ 0
      rw [coeff_poly, g.top]
      exact one_ne_zero
    exact lt_of_lt_of_le (degree_poly hlt) htop
  rw [← (modByMonic_eq_self_iff g.monic).mpr hdegree]
  exact modByMonic_eq_of_dvd_sub g.monic hdvd

end Generator

end Crc
