import Mathlib.Tactic

/-!
# Integers of 32 bits that must not overflow

The operations of `int` in C, on whole numbers: an operation whose result is no `int` has no result,
and so has a division by zero.

* `checked` is an exact result that must fit, `quot` and `rem` the two results of a division;
* `ceilQuot` is a division that rounds away from zero when there is a rest;
* `quot_eq` and `ceilQuot_eq` say when there is a result.
-/

namespace KernelModules.Lib.CheckedInt

/-- The values of `int`. -/
def InInt (x : ℤ) : Prop := -2 ^ 31 ≤ x ∧ x < 2 ^ 31

instance : DecidablePred InInt := fun x => inferInstanceAs (Decidable (_ ∧ _))

/-- An exact result. -/
def checked (x : ℤ) : Option ℤ := if InInt x then some x else none

/-- `x / y`. -/
def quot (x y : ℤ) : Option ℤ := if y = 0 then none else checked (x.tdiv y)

/-- `x % y`. -/
def rem (x y : ℤ) : Option ℤ := (quot x y).map fun _ => x.tmod y

/-- `x / y + !!(x % y)`. -/
def ceilQuot (x y : ℤ) : Option ℤ := do
  let q ← quot x y
  let r ← rem x y
  checked (q + if r = 0 then 0 else 1)

variable {x y : ℤ}

theorem inInt_of_natAbs (h : x.natAbs < 2 ^ 31) : InInt x := by
  constructor <;> omega

theorem InInt.natAbs_le (h : InInt x) : x.natAbs ≤ 2 ^ 31 := by
  have h1 := h.1
  have h2 := h.2
  omega

theorem checked_eq (h : InInt x) : checked x = some x := if_pos h

theorem quot_eq (hx : x.natAbs < 2 ^ 31) (hy : y ≠ 0) : quot x y = some (x.tdiv y) := by
  unfold quot
  rw [if_neg hy]
  exact checked_eq (inInt_of_natAbs ((Int.natAbs_tdiv_le_natAbs x y).trans_lt hx))

theorem ceilQuot_of_inInt (hy : y ≠ 0) (hquot : InInt (x.tdiv y))
    (hceil : InInt (x.tdiv y + if x.tmod y = 0 then 0 else 1)) :
    ceilQuot x y = some (x.tdiv y + if x.tmod y = 0 then 0 else 1) := by
  have heq : quot x y = some (x.tdiv y) := (if_neg hy).trans (checked_eq hquot)
  unfold ceilQuot rem
  rw [heq]
  exact checked_eq hceil

theorem natAbs_ceil_le (x y : ℤ) :
    (x.tdiv y + if x.tmod y = 0 then 0 else 1).natAbs ≤ (x.tdiv y).natAbs + 1 := by
  split <;> omega

theorem ceilQuot_eq (hy : y ≠ 0) {n : ℕ} (hquot : (x.tdiv y).natAbs ≤ n) (hn : n < 2 ^ 31 - 1) :
    ceilQuot x y = some (x.tdiv y + if x.tmod y = 0 then 0 else 1) :=
  ceilQuot_of_inInt hy (inInt_of_natAbs (by omega))
    (inInt_of_natAbs ((natAbs_ceil_le x y).trans_lt (by omega)))

end KernelModules.Lib.CheckedInt
