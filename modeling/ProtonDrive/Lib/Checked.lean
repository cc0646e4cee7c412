import Mathlib.Algebra.Group.Int.Defs

/-!
# Arithmetic that must stay in 64 bits

The operations of a signed 64-bit integer, `none` where the exact result does not fit or the
divisor is zero.  A computation in them that gives a value gives the one of the same computation
over `Int`.
-/

namespace Checked

def Fits (n : Int) : Prop := -2 ^ 63 ≤ n ∧ n < 2 ^ 63

instance (n : Int) : Decidable (Fits n) := inferInstanceAs (Decidable (_ ∧ _))

def fit (n : Int) : Option Int := if Fits n then some n else none

def add (a b : Int) : Option Int := fit (a + b)
def sub (a b : Int) : Option Int := fit (a - b)
def mul (a b : Int) : Option Int := fit (a * b)

/-- a division fails where its quotient does not fit, and so does its remainder -/
def divide (quotient result : Int → Int → Int) (a b : Int) : Option Int :=
  if b = 0 then none else (fit (quotient a b)).map fun _ => result a b

/-- `a / b`, towards zero -/
def div : Int → Int → Option Int := divide Int.tdiv Int.tdiv
/-- `a % b`, with the sign of `a` -/
def rem : Int → Int → Option Int := divide Int.tdiv Int.tmod
/-- `a.div_euclid(b)` -/
def divEuclid : Int → Int → Option Int := divide Int.ediv Int.ediv
/-- `a.rem_euclid(b)` -/
def remEuclid : Int → Int → Option Int := divide Int.ediv Int.emod

section
variable {a b : Int}

/-- one step of a computation that does not fail -/
theorem bind_of {α β : Type} {x : Option α} {a : α} {f : α → Option β} {r : Option β}
    (h : x = some a) (hf : f a = r) : (x >>= f) = r := by
  rw [h, ← hf]
  rfl

theorem fit_of {n : Int} (h : Fits n) : fit n = some n := if_pos h

theorem add_of (h : Fits (a + b)) : add a b = some (a + b) := fit_of h
theorem sub_of (h : Fits (a - b)) : sub a b = some (a - b) := fit_of h
theorem mul_of (h : Fits (a * b)) : mul a b = some (a * b) := fit_of h

theorem divide_of {quotient result : Int → Int → Int} (hb : b ≠ 0) (h : Fits (quotient a b)) :
    divide quotient result a b = some (result a b) := by
  rw [divide, if_neg hb, fit_of h, Option.map_some]

/-- a quotient by a positive number is no larger than the dividend -/
theorem fits_tdiv (hb : 0 < b) (h : Fits a) (h0 : 0 ≤ a) : Fits (a.tdiv b) := by
  have hle := Int.tdiv_le_self b h0
  have hpos := Int.tdiv_nonneg h0 (Int.le_of_lt hb)
  obtain ⟨hlow, hhigh⟩ := h
  exact ⟨by omega, by omega⟩

theorem fits_ediv (hb : 0 < b) (h : Fits a) (h0 : 0 ≤ a) : Fits (a / b) := by
  have hle := Int.ediv_le_self b h0
  have hpos := Int.ediv_nonneg h0 (Int.le_of_lt hb)
  obtain ⟨hlow, hhigh⟩ := h
  exact ⟨by omega, by omega⟩

theorem div_of (hb : 0 < b) (h : Fits a) (h0 : 0 ≤ a) : div a b = some (a.tdiv b) :=
  divide_of (Int.ne_of_gt hb) (fits_tdiv hb h h0)

theorem rem_of (hb : 0 < b) (h : Fits a) (h0 : 0 ≤ a) : rem a b = some (a.tmod b) :=
  divide_of (Int.ne_of_gt hb) (fits_tdiv hb h h0)

/-- a small number fits -/
theorem fits_of {n : Int} (h0 : 0 ≤ n) (h : n < 2 ^ 63) : Fits n :=
  ⟨Int.le_trans (by decide) h0, h⟩

theorem divEuclid_of (hb : 0 < b) (h : Fits a) (h0 : 0 ≤ a) : divEuclid a b = some (a / b) :=
  divide_of (Int.ne_of_gt hb) (fits_ediv hb h h0)

theorem remEuclid_of (hb : 0 < b) (h : Fits a) (h0 : 0 ≤ a) : remEuclid a b = some (a % b) :=
  divide_of (Int.ne_of_gt hb) (fits_ediv hb h h0)

end

end Checked
