import Mathlib.Tactic

/-!
# Fields of hardware registers

A driver changes a field of a register by reading the register, clearing the bits of the field and
putting the new ones in.

* `put` is the register with the bits of a mask replaced: `put_and_self` reads the field,
  `put_and_of_disjoint` any other one;
* `AgreeOn` says that two register files agree in given bits of each register; `AgreeOn.update` is
  the rule for a write;
* `shiftLeft_ushiftRight_of_lt` is for a field that is shifted into its place.
-/

namespace KernelModules.Lib.BitField

open Function

variable {w : ℕ}

/-! ### One register -/

/-- The register `r` with the bits of the mask `m` taken from `v`. -/
def put (r m v : BitVec w) : BitVec w := (r &&& ~~~m) ||| (v &&& m)

theorem put_and_self (r m v : BitVec w) : put r m v &&& m = v &&& m := by
  apply BitVec.eq_of_getLsbD_eq
  intro i hi
  simp only [put, BitVec.getLsbD_and, BitVec.getLsbD_or, BitVec.getLsbD_not, hi, decide_true,
    Bool.true_and]
  cases m.getLsbD i with
  | false => simp
  | true => simp

theorem put_and_of_disjoint (r v : BitVec w) {m n : BitVec w} (h : m &&& n = 0) :
    put r m v &&& n = r &&& n := by
  apply BitVec.eq_of_getLsbD_eq
  intro i hi
  have hbit : (m.getLsbD i && n.getLsbD i) = false := by
    rw [← BitVec.getLsbD_and, h, BitVec.ofNat_eq_ofNat, BitVec.getLsbD_zero]
  simp only [put, BitVec.getLsbD_and, BitVec.getLsbD_or, BitVec.getLsbD_not, hi, decide_true,
    Bool.true_and]
  cases hm : m.getLsbD i with
  | false => simp
  | true =>
    rw [hm, Bool.true_and] at hbit
    rw [hbit, Bool.and_false, Bool.and_false]

theorem clear_and_of_disjoint (r : BitVec w) {m n : BitVec w} (h : m &&& n = 0) :
    (r &&& ~~~m) &&& n = r &&& n := by
  have hput := put_and_of_disjoint r 0 h
  unfold put at hput
  simpa using hput

theorem or_and_self (r m : BitVec w) : (r ||| m) &&& m = m := by
  apply BitVec.eq_of_getLsbD_eq
  intro i hi
  rw [BitVec.getLsbD_and, BitVec.getLsbD_or]
  cases m.getLsbD i with
  | false => rw [Bool.and_false]
  | true => rw [Bool.or_true, Bool.true_and]

theorem or_and_of_disjoint (r : BitVec w) {m n : BitVec w} (h : m &&& n = 0) :
    (r ||| m) &&& n = r &&& n := by
  apply BitVec.eq_of_getLsbD_eq
  intro i hi
  have hbit : (m.getLsbD i && n.getLsbD i) = false := by
    rw [← BitVec.getLsbD_and, h, BitVec.ofNat_eq_ofNat, BitVec.getLsbD_zero]
  rw [BitVec.getLsbD_and, BitVec.getLsbD_or, BitVec.getLsbD_and, Bool.and_or_distrib_right, hbit,
    Bool.or_false]

theorem and_eq_of_allOnes {n : BitVec w} (h : BitVec.allOnes w &&& n = 0) (r v : BitVec w) :
    v &&& n = r &&& n := by
  rw [BitVec.allOnes_and] at h
  rw [h]
  simp

theorem shiftLeft_and_allOnes (v : BitVec w) (k : ℕ) :
    (v <<< k) &&& (BitVec.allOnes w <<< k) = v <<< k := by
  rw [← BitVec.shiftLeft_and_distrib, BitVec.and_allOnes]

theorem shiftLeft_ushiftRight_of_lt {v : BitVec w} {k : ℕ} (h : v.toNat * 2 ^ k < 2 ^ w) :
    (v <<< k) >>> k = v := by
  apply BitVec.eq_of_toNat_eq
  rw [BitVec.toNat_ushiftRight, BitVec.toNat_shiftLeft, Nat.shiftLeft_eq, Nat.mod_eq_of_lt h,
    Nat.shiftRight_eq_div_pow, Nat.mul_div_cancel _ (Nat.two_pow_pos k)]

/-! ### A register file -/

variable {Reg : Type*} {s t u : Reg → BitVec w} {n : Reg → BitVec w}

/-- The registers agree in the bits `n`. -/
def AgreeOn (n : Reg → BitVec w) (s t : Reg → BitVec w) : Prop := ∀ r, s r &&& n r = t r &&& n r

theorem AgreeOn.refl (n : Reg → BitVec w) (s : Reg → BitVec w) : AgreeOn n s s := fun _ => rfl

theorem AgreeOn.trans (h : AgreeOn n s t) (h' : AgreeOn n t u) : AgreeOn n s u := fun r =>
  (h r).trans (h' r)

theorem AgreeOn.update [DecidableEq Reg] (h : AgreeOn n s t) {r : Reg} {v : BitVec w}
    (hv : v &&& n r = t r &&& n r) : AgreeOn n (update s r v) t := by
  intro r'
  by_cases heq : r' = r
  · subst heq
    rw [update_self]
    exact hv
  · rw [update_of_ne heq]
    exact h r'

end KernelModules.Lib.BitField
