import Mathlib.Tactic

/-!
# Machine words: alignment masks and split double words

C code on device registers works with `unsigned int` values, low-bit masks and 64-bit
quantities kept in two 32-bit halves.  The embedding uses `BitVec`, so that the definitions
read as the C does; this file turns the operators into arithmetic on `ℕ`, where `omega`
finishes:

* `toNat_and_low`, `toNat_and_not_low`: `x & (2^n - 1)` is `x mod 2^n`, and
  `x & ~(2^n - 1)` rounds down to a multiple of `2^n`;
* `alignUp` and `alignUp_toNat`: the "add one block, then mask" rounding of C code, which
  wraps to zero in the last block;
* `update_and_self`, `update_and_of_disjoint`: what a read-modify-write `(x & ~m) | v` of the bits
  `m` leaves in these bits and in the others;
* `ByteOrder`, `cpuToBe16`: the byte order of the host and the conversion of half words;
* `join`: the value of a double word given by its two halves.
-/

namespace KernelModules.Lib.Word

variable {w : ℕ}

/-! ### Low-bit masks -/

theorem getLsbD_low (n i : ℕ) (hi : i < w) :
    (BitVec.ofNat w (2 ^ n - 1)).getLsbD i = decide (i < n) := by
  rw [BitVec.getLsbD_ofNat, Nat.testBit_two_pow_sub_one]
  simp [hi]

theorem toNat_and_low (x : BitVec w) (n : ℕ) (hn : n ≤ w) :
    (x &&& BitVec.ofNat w (2 ^ n - 1)).toNat = x.toNat % 2 ^ n := by
  have hlt : 2 ^ n - 1 < 2 ^ w := by
    have h1 : 2 ^ n ≤ 2 ^ w := Nat.pow_le_pow_right (by omega) hn
    have h2 : 0 < 2 ^ n := by positivity
    omega
  rw [BitVec.toNat_and, BitVec.toNat_ofNat, Nat.mod_eq_of_lt hlt]
  exact Nat.and_two_pow_sub_one_eq_mod x.toNat n

theorem and_not_low (x : BitVec w) (n : ℕ) :
    x &&& ~~~(BitVec.ofNat w (2 ^ n - 1)) = (x >>> n) <<< n := by
  apply BitVec.eq_of_getLsbD_eq
  intro i hi
  rw [BitVec.getLsbD_and, BitVec.getLsbD_not, getLsbD_low n i hi, BitVec.getLsbD_shiftLeft,
    BitVec.getLsbD_ushiftRight]
  by_cases h : i < n
  · simp [h]
  · simp [h, hi, show n + (i - n) = i by omega]

theorem toNat_and_not_low (x : BitVec w) (n : ℕ) :
    (x &&& ~~~(BitVec.ofNat w (2 ^ n - 1))).toNat = x.toNat / 2 ^ n * 2 ^ n := by
  rw [and_not_low, BitVec.toNat_shiftLeft, BitVec.toNat_ushiftRight, Nat.shiftRight_eq_div_pow,
    Nat.shiftLeft_eq]
  apply Nat.mod_eq_of_lt
  exact lt_of_le_of_lt (Nat.div_mul_le_self _ _) x.isLt

theorem and_low_ne_zero_iff (x : BitVec w) (n : ℕ) (hn : n ≤ w) :
    x &&& BitVec.ofNat w (2 ^ n - 1) ≠ 0 ↔ x.toNat % 2 ^ n ≠ 0 := by
  rw [← toNat_and_low x n hn]
  constructor
  · intro h h0
    exact h (BitVec.eq_of_toNat_eq (by simpa using h0))
  · intro h h0
    exact h (by rw [h0]; rfl)

/-! ### The 64K granularity of bridge windows -/

theorem toNat_and_not_ffff (x : BitVec 32) :
    (x &&& ~~~0xffff#32).toNat = x.toNat / 65536 * 65536 :=
  toNat_and_not_low x 16

theorem and_ffff_ne_zero_iff (x : BitVec 32) :
    x &&& 0xffff#32 ≠ 0 ↔ x.toNat % 65536 ≠ 0 :=
  and_low_ne_zero_iff x 16 (by omega)

theorem or_ffff_toNat (x : BitVec 32) (h : x.toNat % 65536 = 0) :
    (x ||| 0xffff#32).toNat = x.toNat + 65535 := by
  have hx : x.toNat = 2 ^ 16 * (x.toNat / 65536) := by omega
  rw [BitVec.toNat_or, hx]
  have := Nat.two_pow_add_eq_or_of_lt (i := 16) (b := 65535) (by norm_num) (x.toNat / 65536)
  rw [show (0xffff#32).toNat = 65535 from rfl, ← this]

/-- Rounding up to a 64K multiple the way the driver does it: nothing when the low bits are
clear, else one block is added and the low bits are masked. -/
def alignUp (x : BitVec 32) : BitVec 32 :=
  if x &&& 0xffff#32 ≠ 0 then (x + 0x10000#32) &&& ~~~0xffff#32 else x

/-- In the last block the addition wraps and the rounded value is zero; below it the result
is the next multiple. -/
theorem alignUp_toNat (x : BitVec 32) :
    (alignUp x).toNat =
      if 0xffff0000 < x.toNat then 0 else (x.toNat + 65535) / 65536 * 65536 := by
  have hx := x.isLt
  unfold alignUp
  by_cases h : x &&& 0xffff#32 ≠ 0
  · rw [if_pos h, toNat_and_not_ffff, BitVec.toNat_add]
    rw [and_ffff_ne_zero_iff] at h
    rw [show (0x10000#32).toNat = 65536 from rfl]
    split <;> omega
  · rw [if_neg h]
    rw [and_ffff_ne_zero_iff] at h
    split <;> omega

theorem alignUp_mod (x : BitVec 32) : (alignUp x).toNat % 65536 = 0 := by
  rw [alignUp_toNat]
  split <;> omega

theorem alignUp_eq_self {x : BitVec 32} (h : x.toNat % 65536 = 0) : alignUp x = x := by
  have h0 : ¬ (x &&& 0xffff#32 ≠ 0) := by
    rw [and_ffff_ne_zero_iff]
    omega
  rw [alignUp, if_neg h0]

/-! ### Fields packed into a word -/

theorem and_low_eq_self {x : BitVec w} {n : ℕ} (hn : n ≤ w) (h : x.toNat < 2 ^ n) :
    x &&& BitVec.ofNat w (2 ^ n - 1) = x := by
  apply BitVec.eq_of_toNat_eq
  rw [toNat_and_low x n hn, Nat.mod_eq_of_lt h]

/-- What is put into a field is got out of it, if it fits the field. -/
theorem field_get_put {v mask m low : BitVec w} {k : ℕ} (hm : (mask >>> k) &&& m = low)
    (hlow : (low <<< k) >>> k = low) (hv : v &&& low = v) :
    (((v <<< k) &&& mask) >>> k) &&& m = v := by
  have hshift : (v <<< k) >>> k &&& low = v := by
    apply BitVec.eq_of_getLsbD_eq
    intro i hi
    have hvi := congrArg (BitVec.getLsbD · i) hv
    have hli := congrArg (BitVec.getLsbD · i) hlow
    simp only [BitVec.getLsbD_and, BitVec.getLsbD_ushiftRight, BitVec.getLsbD_shiftLeft,
      Nat.not_lt.mpr (Nat.le_add_right k i), Nat.add_sub_cancel_left] at hvi hli ⊢
    cases hbit : low.getLsbD i
    · rw [hbit, Bool.and_false] at hvi
      rw [Bool.and_false, ← hvi]
    · rw [hbit] at hli
      have hki : k + i < w := by simpa using hli
      simp [hki]
  rw [BitVec.ushiftRight_and_distrib, BitVec.and_assoc, hm]
  exact hshift

theorem field_get_other {x mask' m : BitVec w} {k : ℕ} (h : (mask' >>> k) &&& m = 0#w) :
    ((x &&& mask') >>> k) &&& m = 0#w := by
  rw [BitVec.ushiftRight_and_distrib, BitVec.and_assoc, h, BitVec.and_zero]

theorem field_put_get {x mask m : BitVec w} {k : ℕ}
    (h : BitVec.allOnes w <<< k &&& (m <<< k &&& mask) = mask) :
    (((x >>> k) &&& m) <<< k) &&& mask = x &&& mask := by
  rw [BitVec.shiftLeft_and_distrib, BitVec.shiftLeft_ushiftRight, BitVec.and_assoc,
    BitVec.and_assoc, h]

/-! ### Updates of a field of a register -/

theorem update_and_self {x v m : BitVec w} (hv : v &&& m = v) :
    (x &&& ~~~m ||| v) &&& m = v := by
  apply BitVec.eq_of_getLsbD_eq
  intro i hi
  have hvi := congrArg (BitVec.getLsbD · i) hv
  simp only [BitVec.getLsbD_and, BitVec.getLsbD_or, BitVec.getLsbD_not] at hvi ⊢
  cases hm : m.getLsbD i
  · rw [hm, Bool.and_false] at hvi
    simp [← hvi]
  · simp

theorem update_and_of_disjoint {x v m m' : BitVec w} (hm : m &&& m' = 0#w) (hv : v &&& m = v) :
    (x &&& ~~~m ||| v) &&& m' = x &&& m' := by
  apply BitVec.eq_of_getLsbD_eq
  intro i hi
  have hmi := congrArg (BitVec.getLsbD · i) hm
  have hvi := congrArg (BitVec.getLsbD · i) hv
  simp only [BitVec.getLsbD_and, BitVec.getLsbD_or, BitVec.getLsbD_not, BitVec.getLsbD_zero,
    hi] at hmi hvi ⊢
  cases hm' : m'.getLsbD i
  · simp
  · rw [hm', Bool.and_true] at hmi
    rw [hmi, Bool.and_false] at hvi
    simp [hmi, ← hvi]

theorem and_not_and_of_disjoint {x m m' : BitVec w} (hm : m &&& m' = 0#w) :
    (x &&& ~~~m) &&& m' = x &&& m' := by
  have h := update_and_of_disjoint (x := x) hm BitVec.zero_and
  rwa [BitVec.or_zero] at h

theorem or_and_of_disjoint {x m m' : BitVec w} (hm : m &&& m' = 0#w) :
    (x ||| m) &&& m' = x &&& m' := by
  have hset : x ||| m = x &&& ~~~m ||| m := by
    apply BitVec.eq_of_getLsbD_eq
    intro i hi
    simp only [BitVec.getLsbD_and, BitVec.getLsbD_or, BitVec.getLsbD_not, hi]
    cases x.getLsbD i <;> cases m.getLsbD i <;> rfl
  rw [hset]
  exact update_and_of_disjoint hm BitVec.and_self

/-! ### Byte order -/

/-- The byte order of a host. -/
inductive ByteOrder
  | little | big
  deriving DecidableEq, Repr

/-- The two bytes of a half word exchanged. -/
def swab16 (x : BitVec 16) : BitVec 16 := x <<< 8 ||| x >>> 8

/-- `cpu_to_be16`, which is also `be16_to_cpu`. -/
def cpuToBe16 : ByteOrder → BitVec 16 → BitVec 16
  | .little, x => swab16 x
  | .big, x => x

theorem swab16_swab16 (x : BitVec 16) : swab16 (swab16 x) = x := by
  apply BitVec.eq_of_getLsbD_eq
  intro i hi
  simp only [swab16, BitVec.getLsbD_or, BitVec.getLsbD_shiftLeft, BitVec.getLsbD_ushiftRight]
  have hge : x.getLsbD (8 + (8 + i)) = false := BitVec.getLsbD_of_ge x _ (by omega)
  by_cases h : i < 8
  · simp [h, show ¬ 8 + i < 8 by omega, show 8 + i < 16 by omega, hi,
      show 8 + (8 + i) = 16 + i by omega]
  · simp [h, show i - 8 < 8 by omega, show 8 + (i - 8) = i by omega, hi, hge]

theorem cpuToBe16_cpuToBe16 (o : ByteOrder) (x : BitVec 16) :
    cpuToBe16 o (cpuToBe16 o x) = x := by
  cases o with
  | little => exact swab16_swab16 x
  | big => rfl

/-! ### Double words kept in two halves -/

/-- The number given by an upper and a lower 32-bit half. -/
def join (hi lo : BitVec 32) : ℕ := hi.toNat * 2 ^ 32 + lo.toNat

theorem join_zero (lo : BitVec 32) : join 0 lo = lo.toNat := by
  simp [join]

end KernelModules.Lib.Word
