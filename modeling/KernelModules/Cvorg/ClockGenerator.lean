import Mathlib.Tactic
import KernelModules.Lib.Word

/-!
# The clock generator of a CVORG module

The sampling clock comes from an AD9516 with a phase locked loop and three dividers behind it.  The
driver writes a configuration to the registers of the chip with one set of functions and reads it
back with another.

* `AdPll` is a configuration, `Registers` are the registers of the chip, which hold what was written
  to them last;
* `checkPll` are the checks of a request, `checkPllDividers` brings the channel dividers in order,
  `writeA`, `writeB`, `writeR`, `writeP`, `writeDvco` and `writeD` write the parameters and
  `applyPllConf` puts them together;
* `readA` to `readD` and `getPllConf` read a configuration;
* `SamePll` is the round trip.  The second channel divider is read from the phase register of the
  first one, a prescaler of 4 or 8 is not known when it is read, and a negative `A` is accepted;
  `ReadsBack` says when the round trip holds all the same (`getPllConf_iff`).

The waiting for the chip, the selection of its input clock and the calibration (but for its
division) are left out.
-/

namespace KernelModules.Cvorg

open Function

/-- `struct ad9516_pll`. -/
structure AdPll where
  a : ℤ
  b : ℤ
  p : ℤ
  r : ℤ
  dvco : ℤ
  d1 : ℤ
  d2 : ℤ
  external : ℤ
  inputFreq : ℤ
  deriving DecidableEq, Repr

/-- The registers of the chip by their addresses. -/
abbrev Registers := ℕ → BitVec 8

/-! ### Addresses -/

def RCOUNT_LSB : ℕ := 0x11
def RCOUNT_MSB : ℕ := 0x12
def ACOUNT : ℕ := 0x13
def BCOUNT_LSB : ℕ := 0x14
def BCOUNT_MSB : ℕ := 0x15
def PLL1 : ℕ := 0x16
def PLL3 : ℕ := 0x18
def CMOSDIV3_1 : ℕ := 0x199
def CMOSDIV3_PHO : ℕ := 0x19A
def CMOSDIV3_2 : ℕ := 0x19B
def CMOSDIV3_BYPASS : ℕ := 0x19C
def CMOSDIV4_1 : ℕ := 0x19E
def CMOSDIV4_2 : ℕ := 0x1A0
def CMOSDIV4_BYPASS : ℕ := 0x1A1
def VCO_DIVIDER : ℕ := 0x1E0
def INPUT_CLKS : ℕ := 0x1E1
def UPDATE_ALL : ℕ := 0x232

/-! ### Access -/

/-- `clkgen_wr`. -/
def clkgenWr (regs : Registers) (addr : ℕ) (data : BitVec 8) : Registers := update regs addr data

/-- `clkgen_or`. -/
def clkgenOr (regs : Registers) (addr : ℕ) (data : BitVec 8) : Registers :=
  clkgenWr regs addr (regs addr ||| data)

/-- `clkgen_and`. -/
def clkgenAnd (regs : Registers) (addr : ℕ) (data : BitVec 8) : Registers :=
  clkgenWr regs addr (regs addr &&& data)

/-! ### Reading -/

/-- `clkgen_read_dvco`. -/
def readDvco (regs : Registers) : ℤ :=
  if regs INPUT_CLKS &&& 0x1 ≠ 0 then 1
  else
    let retval := (regs VCO_DIVIDER &&& 0x7).toNat + 2
    if 7 ≤ retval then 1 else retval

/-- The divider in the two halves of a register. -/
def cycles (val : BitVec 8) : ℕ := ((val &&& 0xf0) >>> 4).toNat + (val &&& 0x0f).toNat + 2

/-- `clkgen_read_d`. -/
def readD (regs : Registers) (offset nr : ℕ) : ℤ :=
  let bypass := regs (offset + 3)
  let nr := if nr < 1 ∨ 2 < nr then 1 else nr
  let val := regs (offset + (nr - 1))
  if bypass &&& 1#8 <<< (4 + (nr - 1)) ≠ 0 then 1 else cycles val

/-- `clkgen_read_a`. -/
def readA (regs : Registers) : ℤ := (regs ACOUNT &&& 0x3f).toNat

/-- `clkgen_read_b`. -/
def readB (regs : Registers) : ℤ :=
  ((regs BCOUNT_LSB).toNat ||| (regs BCOUNT_MSB &&& 0x1f).toNat <<< 8 : ℕ)

/-- `clkgen_read_r`. -/
def readR (regs : Registers) : ℤ :=
  ((regs RCOUNT_LSB).toNat ||| (regs RCOUNT_MSB &&& 0x3f).toNat <<< 8 : ℕ)

/-- `clkgen_read_p`. -/
def readP (regs : Registers) : ℤ :=
  let prescaler := regs PLL1 &&& 0x7
  if prescaler = 5 then 16 else if prescaler = 6 then 32 else 1

/-- `get_pll_conf`, which leaves the other fields of the configuration alone. -/
def getPllConf (regs : Registers) (pll : AdPll) : AdPll :=
  { pll with
    a := readA regs
    b := readB regs
    r := readR regs
    p := readP regs
    dvco := readDvco regs
    d1 := readD regs CMOSDIV3_1 1
    d2 := readD regs CMOSDIV3_1 2 }

/-! ### Writing -/

/-- `check_pll_dividers` for a divider by one, which is bypassed. -/
def bypassOne (d : ℤ) : ℤ := if d = 1 then 0 else d

/-- `check_pll_dividers`. -/
def checkPllDividers (pll : AdPll) : AdPll :=
  let pll := { pll with
    dvco := bypassOne pll.dvco, d1 := bypassOne pll.d1, d2 := bypassOne pll.d2 }
  if pll.d1 = 0 ∧ pll.d2 = 0 then pll
  else if pll.d1 = 0 ∧ pll.d2 ≠ 0 then { pll with d1 := pll.d2, d2 := 0 }
  else if pll.d1.tmod 2 ≠ 0 ∧ pll.d2.tmod 2 = 0 then { pll with d1 := pll.d2, d2 := pll.d1 }
  else pll

/-- `clkgen_write_a`. -/
def writeA (regs : Registers) (a : ℤ) : Registers :=
  clkgenWr regs ACOUNT (BitVec.ofInt 8 a &&& 0x3f)

/-- `clkgen_write_b`. -/
def writeB (regs : Registers) (b : ℤ) : Registers :=
  let regs := clkgenWr regs BCOUNT_LSB (BitVec.ofInt 8 b &&& 0xff)
  clkgenWr regs BCOUNT_MSB (BitVec.ofInt 8 (b >>> (8 : ℕ)) &&& 0x3f)

/-- `clkgen_write_r`. -/
def writeR (regs : Registers) (r : ℤ) : Registers :=
  let regs := clkgenWr regs RCOUNT_LSB (BitVec.ofInt 8 r &&& 0xff)
  clkgenWr regs RCOUNT_MSB (BitVec.ofInt 8 (r >>> (8 : ℕ)) &&& 0x3f)

/-- The code of a prescaler. -/
def prescaler : ℤ → BitVec 8
  | 2 => 0x2
  | 4 => 0x3
  | 8 => 0x4
  | 16 => 0x5
  | 32 => 0x6
  | _ => 0x6

/-- `clkgen_write_p`. -/
def writeP (regs : Registers) (p : ℤ) : Registers :=
  clkgenOr (clkgenAnd regs PLL1 (~~~0x07)) PLL1 (prescaler p)

/-- `clkgen_write_dvco`, with the configuration as it leaves it. -/
def writeDvco (regs : Registers) (pll : AdPll) : Registers × AdPll :=
  if pll.dvco = 0 ∧ pll.external ≠ 0 then (clkgenOr regs INPUT_CLKS 0x1, pll)
  else
    let pll := if pll.dvco = 0 then { pll with dvco := 2 } else pll
    let pll := if pll.dvco < 2 ∨ 6 < pll.dvco then { pll with dvco := 2 } else pll
    let regs := clkgenWr regs VCO_DIVIDER (BitVec.ofInt 8 (pll.dvco - 2) &&& 0x7)
    (clkgenAnd regs INPUT_CLKS (~~~0x1), pll)

/-- The register of a divider, that of its bypass, and the bit there. -/
def dividerAddr (divider nr : ℕ) : ℕ × ℕ × BitVec 8 :=
  if divider = 3 then
    if nr = 1 then (CMOSDIV3_1, CMOSDIV3_BYPASS, 0x10) else (CMOSDIV3_2, CMOSDIV3_BYPASS, 0x20)
  else if nr = 1 then (CMOSDIV4_1, CMOSDIV4_BYPASS, 0x10)
  else (CMOSDIV4_2, CMOSDIV4_BYPASS, 0x20)

/-- The two halves of a register for a divider by `d`: half of the cycles each, and the odd one to
the upper half. -/
def halves (d : ℤ) : BitVec 8 :=
  let d := d - 2
  let m := d.tdiv 2 + d.tmod 2
  let n := d.tdiv 2
  (BitVec.ofInt 8 m &&& 0xf) <<< 4 ||| (BitVec.ofInt 8 n &&& 0xf)

/-- `clkgen_write_d`. -/
def writeD (regs : Registers) (divider nr : ℕ) (d : ℤ) : Registers :=
  if divider < 3 ∨ 4 < divider then regs
  else if nr < 1 ∨ 2 < nr then regs
  else
    let addr := dividerAddr divider nr
    if d = 0 then clkgenOr regs addr.2.1 addr.2.2
    else clkgenAnd (clkgenWr regs addr.1 (halves d)) addr.2.1 (~~~addr.2.2)

/-- The reference in cycles per millisecond of `calib_vco_sleep`, by which it divides. -/
def refCycles (freqref : ℤ) : ℤ := freqref.tdiv 1000 + if freqref.tmod 1000 = 0 then 0 else 1

/-- `clkgen_apply_pll_conf`; a division by zero ends the program. -/
def applyPllConf (regs : Registers) (pll : AdPll) : Option (Registers × AdPll) :=
  let pll := checkPllDividers pll
  let regs := clkgenWr regs INPUT_CLKS (if pll.external ≠ 0 then 0x9 else 0x2)
  let regs := writeA regs pll.a
  let regs := writeB regs pll.b
  let regs := writeR regs pll.r
  let regs := writeP regs pll.p
  let r := writeDvco regs pll
  let regs := r.1
  let pll := r.2
  let regs := writeD regs 3 1 pll.d1
  let regs := writeD regs 3 2 pll.d2
  let regs := writeD regs 4 1 pll.d1
  let regs := writeD regs 4 2 pll.d2
  let regs := clkgenWr regs PLL3 0x00
  let regs := clkgenWr regs UPDATE_ALL 0x01
  let regs := clkgenWr regs PLL3 0x01
  let regs := clkgenWr regs UPDATE_ALL 0x01
  if refCycles pll.inputFreq = 0 then none else some (regs, pll)

/-- `clkgen_check_pll`: whether the configuration is accepted. -/
def checkPll (pll : AdPll) : Bool :=
  !(pll.a > pll.b || pll.a > 63 || (pll.p ≠ 4 && pll.p ≠ 8 && pll.p ≠ 16 && pll.p ≠ 32) ||
    (pll.b ≤ 0 || pll.b > 8191) || (pll.r ≤ 0 || pll.r > 16383))

/-! ### The round trip -/

/-- A divider that may be bypassed. -/
def divisor (d : ℤ) : ℤ := if d = 0 then 1 else d

/-- The output divider: the VCO divider and the channel dividers that are not bypassed. -/
def AdPll.totalDivider (pll : AdPll) : ℤ := divisor pll.dvco * divisor pll.d1 * divisor pll.d2

/-- What is read back is the loop that was asked for, and an equal output divider. -/
structure SamePll (pll got : AdPll) : Prop where
  a : got.a = pll.a
  b : got.b = pll.b
  p : got.p = pll.p
  r : got.r = pll.r
  total : got.totalDivider = pll.totalDivider

/-- The VCO divider that is used: one that cannot be set is two. -/
def AdPll.vcoDivider (pll : AdPll) : ℤ :=
  if divisor pll.dvco = 1 ∧ pll.external ≠ 0 then 1
  else if 2 ≤ pll.dvco ∧ pll.dvco ≤ 6 then pll.dvco else 2

/-- A channel divider as far as four bits hold each half of it. -/
def channelDivider (d : ℤ) : ℤ := if d = 0 then 1 else cycles (halves d)

/-- **When a configuration reads back**: the calibration does not divide by zero, `A` is not
negative, `P` is 16 or 32, and the dividers have the right product when the phase register is taken
for the second channel divider. -/
structure ReadsBack (regs : Registers) (pll : AdPll) : Prop where
  reference : refCycles pll.inputFreq ≠ 0
  a_nonneg : 0 ≤ pll.a
  prescaler : pll.p = 16 ∨ pll.p = 32
  dividers : pll.vcoDivider * channelDivider (checkPllDividers pll).d1 *
    (if (checkPllDividers pll).d2 = 0 then 1 else cycles (regs CMOSDIV3_PHO)) = pll.totalDivider

/-! ### What each write leaves alone -/

section Frame

variable {regs : Registers} {addr : ℕ}

theorem clkgenWr_of_ne {at' : ℕ} (h : addr ≠ at') (data : BitVec 8) :
    clkgenWr regs at' data addr = regs addr := update_of_ne h _ _

theorem clkgenOr_of_ne {at' : ℕ} (h : addr ≠ at') (data : BitVec 8) :
    clkgenOr regs at' data addr = regs addr := update_of_ne h _ _

theorem clkgenAnd_of_ne {at' : ℕ} (h : addr ≠ at') (data : BitVec 8) :
    clkgenAnd regs at' data addr = regs addr := update_of_ne h _ _

theorem clkgenWr_self (at' : ℕ) (data : BitVec 8) : clkgenWr regs at' data at' = data :=
  update_self _ _ _

theorem clkgenOr_self (at' : ℕ) (data : BitVec 8) :
    clkgenOr regs at' data at' = regs at' ||| data := update_self _ _ _

theorem clkgenAnd_self (at' : ℕ) (data : BitVec 8) :
    clkgenAnd regs at' data at' = regs at' &&& data := update_self _ _ _

theorem writeB_of_ne (h : addr ≠ BCOUNT_LSB) (h' : addr ≠ BCOUNT_MSB) (b : ℤ) :
    writeB regs b addr = regs addr := by
  rw [writeB, clkgenWr_of_ne h', clkgenWr_of_ne h]

theorem writeR_of_ne (h : addr ≠ RCOUNT_LSB) (h' : addr ≠ RCOUNT_MSB) (r : ℤ) :
    writeR regs r addr = regs addr := by
  rw [writeR, clkgenWr_of_ne h', clkgenWr_of_ne h]

theorem writeP_of_ne (h : addr ≠ PLL1) (p : ℤ) : writeP regs p addr = regs addr := by
  rw [writeP, clkgenOr_of_ne h, clkgenAnd_of_ne h]

theorem writeDvco_of_ne (h : addr ≠ VCO_DIVIDER) (h' : addr ≠ INPUT_CLKS) (pll : AdPll) :
    (writeDvco regs pll).1 addr = regs addr := by
  unfold writeDvco
  split
  · exact clkgenOr_of_ne h' _
  · dsimp only
    rw [clkgenAnd_of_ne h', clkgenWr_of_ne h]

theorem writeD_of_ne {divider nr : ℕ} (h : addr ≠ (dividerAddr divider nr).1)
    (h' : addr ≠ (dividerAddr divider nr).2.1) (d : ℤ) :
    writeD regs divider nr d addr = regs addr := by
  unfold writeD
  split
  · rfl
  · split
    · rfl
    · dsimp only
      split
      · exact clkgenOr_of_ne h' _
      · rw [clkgenAnd_of_ne h', clkgenWr_of_ne h]

theorem writeDvco_conf (regs : Registers) (pll : AdPll) :
    (writeDvco regs pll).2.d1 = pll.d1 ∧ (writeDvco regs pll).2.d2 = pll.d2 ∧
      (writeDvco regs pll).2.inputFreq = pll.inputFreq := by
  unfold writeDvco
  split
  · exact ⟨rfl, rfl, rfl⟩
  · dsimp only
    split <;> split <;> exact ⟨rfl, rfl, rfl⟩

theorem checkPllDividers_conf (pll : AdPll) :
    (checkPllDividers pll).a = pll.a ∧ (checkPllDividers pll).b = pll.b ∧
      (checkPllDividers pll).p = pll.p ∧ (checkPllDividers pll).r = pll.r ∧
      (checkPllDividers pll).dvco = bypassOne pll.dvco ∧
      (checkPllDividers pll).external = pll.external ∧
      (checkPllDividers pll).inputFreq = pll.inputFreq := by
  unfold checkPllDividers
  dsimp only
  split
  · exact ⟨rfl, rfl, rfl, rfl, rfl, rfl, rfl⟩
  · split
    · exact ⟨rfl, rfl, rfl, rfl, rfl, rfl, rfl⟩
    · split <;> exact ⟨rfl, rfl, rfl, rfl, rfl, rfl, rfl⟩

end Frame

/-! ### The registers after a configuration was applied -/

/-- The writes of the channel dividers and after them. -/
def writeChannels (regs : Registers) (d1 d2 : ℤ) : Registers :=
  let regs := writeD (writeD (writeD (writeD regs 3 1 d1) 3 2 d2) 4 1 d1) 4 2 d2
  clkgenWr (clkgenWr (clkgenWr (clkgenWr regs PLL3 0x00) UPDATE_ALL 0x01) PLL3 0x01) UPDATE_ALL 0x01

/-- The writes of the loop. -/
def writeLoop (regs : Registers) (pll : AdPll) : Registers :=
  let regs := clkgenWr regs INPUT_CLKS (if pll.external ≠ 0 then 0x9 else 0x2)
  writeP (writeR (writeB (writeA regs pll.a) pll.b) pll.r) pll.p

theorem applyPllConf_eq {regs : Registers} {pll : AdPll} (h : refCycles pll.inputFreq ≠ 0) :
    applyPllConf regs pll = some (writeChannels
      (writeDvco (writeLoop regs (checkPllDividers pll)) (checkPllDividers pll)).1
      (checkPllDividers pll).d1 (checkPllDividers pll).d2,
      (writeDvco (writeLoop regs (checkPllDividers pll)) (checkPllDividers pll)).2) := by
  obtain ⟨hd1, hd2, hfreq⟩ := writeDvco_conf
    (writeLoop regs (checkPllDividers pll)) (checkPllDividers pll)
  have hzero : refCycles (writeDvco (writeLoop regs (checkPllDividers pll))
      (checkPllDividers pll)).2.inputFreq ≠ 0 := by
    rw [hfreq, (checkPllDividers_conf pll).2.2.2.2.2.2]
    exact h
  refine (if_neg hzero).trans ?_
  rw [← hd1, ← hd2]
  rfl

theorem applyPllConf_none {regs : Registers} {pll : AdPll} (h : refCycles pll.inputFreq = 0) :
    applyPllConf regs pll = none := by
  obtain ⟨-, -, hfreq⟩ := writeDvco_conf
    (writeLoop regs (checkPllDividers pll)) (checkPllDividers pll)
  have hzero : refCycles (writeDvco (writeLoop regs (checkPllDividers pll))
      (checkPllDividers pll)).2.inputFreq = 0 := by
    rw [hfreq, (checkPllDividers_conf pll).2.2.2.2.2.2]
    exact h
  rw [writeLoop] at hzero
  exact if_pos hzero

section Channels

variable {regs : Registers} {d1 d2 : ℤ}

theorem writeChannels_of_ne {addr : ℕ} (h : addr ∉ [CMOSDIV3_1, CMOSDIV3_2, CMOSDIV3_BYPASS,
    CMOSDIV4_1, CMOSDIV4_2, CMOSDIV4_BYPASS, PLL3, UPDATE_ALL]) :
    writeChannels regs d1 d2 addr = regs addr := by
  simp only [List.mem_cons, List.not_mem_nil, or_false, not_or] at h
  obtain ⟨h1, h2, h3, h4, h5, h6, h7, h8⟩ := h
  rw [writeChannels, clkgenWr_of_ne h8, clkgenWr_of_ne h7, clkgenWr_of_ne h8, clkgenWr_of_ne h7,
    writeD_of_ne (by exact h5) (by exact h6), writeD_of_ne (by exact h4) (by exact h6),
    writeD_of_ne (by exact h2) (by exact h3), writeD_of_ne (by exact h1) (by exact h3)]

theorem writeChannels_three {addr : ℕ} (h : addr ∈ [CMOSDIV3_1, CMOSDIV3_BYPASS]) :
    writeChannels regs d1 d2 addr = writeD (writeD regs 3 1 d1) 3 2 d2 addr := by
  have hne : addr ≠ CMOSDIV4_1 ∧ addr ≠ CMOSDIV4_2 ∧ addr ≠ CMOSDIV4_BYPASS ∧ addr ≠ PLL3 ∧
      addr ≠ UPDATE_ALL := by
    simp only [List.mem_cons, List.not_mem_nil, or_false] at h
    obtain rfl | rfl := h <;> decide
  obtain ⟨h4, h5, h6, h7, h8⟩ := hne
  rw [writeChannels, clkgenWr_of_ne h8, clkgenWr_of_ne h7, clkgenWr_of_ne h8, clkgenWr_of_ne h7,
    writeD_of_ne (by exact h5) (by exact h6), writeD_of_ne (by exact h4) (by exact h6)]

theorem bypass_bits : ∀ x : BitVec 8,
    (x ||| 0x10) &&& 0x10 ≠ 0 ∧ (x &&& ~~~0x10) &&& 0x10 = 0 ∧ (x ||| 0x20) &&& 0x20 ≠ 0 ∧
      (x &&& ~~~0x20) &&& 0x20 = 0 ∧ (x ||| 0x20) &&& 0x10 = x &&& 0x10 ∧
      (x &&& ~~~0x20) &&& 0x10 = x &&& 0x10 := by
  decide +kernel

theorem writeD_bypass (regs : Registers) (d1 d2 : ℤ) :
    (writeD (writeD regs 3 1 d1) 3 2 d2 CMOSDIV3_BYPASS &&& 0x10 ≠ 0 ↔ d1 = 0) ∧
      (writeD (writeD regs 3 1 d1) 3 2 d2 CMOSDIV3_BYPASS &&& 0x20 ≠ 0 ↔ d2 = 0) := by
  have hfirst : writeD regs 3 1 d1 CMOSDIV3_BYPASS =
      if d1 = 0 then regs CMOSDIV3_BYPASS ||| 0x10 else regs CMOSDIV3_BYPASS &&& ~~~0x10 := by
    unfold writeD
    by_cases hd : d1 = 0 <;> simp [hd, dividerAddr, clkgenOr, clkgenAnd, clkgenWr, CMOSDIV3_1,
      CMOSDIV3_BYPASS]
  have hsecond : writeD (writeD regs 3 1 d1) 3 2 d2 CMOSDIV3_BYPASS =
      if d2 = 0 then writeD regs 3 1 d1 CMOSDIV3_BYPASS ||| 0x20
      else writeD regs 3 1 d1 CMOSDIV3_BYPASS &&& ~~~0x20 := by
    generalize writeD regs 3 1 d1 = regs
    unfold writeD
    by_cases hd : d2 = 0 <;> simp [hd, dividerAddr, clkgenOr, clkgenAnd, clkgenWr, CMOSDIV3_2,
      CMOSDIV3_BYPASS]
  rw [hsecond, hfirst]
  generalize regs CMOSDIV3_BYPASS = x
  obtain ⟨hset, hclear, -⟩ := bypass_bits x
  constructor
  · by_cases h2 : d2 = 0
    · rw [if_pos h2, (bypass_bits _).2.2.2.2.1]
      by_cases h1 : d1 = 0
      · simpa [h1] using hset
      · simpa [h1] using hclear
    · rw [if_neg h2, (bypass_bits _).2.2.2.2.2]
      by_cases h1 : d1 = 0
      · simpa [h1] using hset
      · simpa [h1] using hclear
  · by_cases h2 : d2 = 0
    · rw [if_pos h2]
      exact iff_of_true (bypass_bits _).2.2.1 h2
    · rw [if_neg h2]
      exact iff_of_false (not_not.mpr (bypass_bits _).2.2.2.1) h2

theorem readD_first : readD (writeChannels regs d1 d2) CMOSDIV3_1 1 = channelDivider d1 := by
  have hbypass := (writeD_bypass regs d1 d2).1
  have haddr : CMOSDIV3_1 + 3 = CMOSDIV3_BYPASS := rfl
  rw [readD, haddr, writeChannels_three (by decide), channelDivider,
    show CMOSDIV3_1 + ((if 1 < 1 ∨ 2 < 1 then 1 else 1) - 1) = CMOSDIV3_1 from rfl,
    show 1#8 <<< (4 + ((if 1 < 1 ∨ 2 < 1 then 1 else 1) - 1)) = 0x10 from rfl]
  by_cases h1 : d1 = 0
  · rw [if_pos (hbypass.mpr h1), if_pos h1]
  · rw [if_neg (mt hbypass.mp h1), if_neg h1, writeChannels_three (by decide),
      writeD_of_ne (by decide) (by decide)]
    unfold writeD
    rw [if_neg (by decide), if_neg (by decide), if_neg h1, clkgenAnd_of_ne (by decide)]
    exact congrArg (fun x => ((cycles x : ℕ) : ℤ)) (clkgenWr_self _ _)

theorem readD_second : readD (writeChannels regs d1 d2) CMOSDIV3_1 2 =
    if d2 = 0 then 1 else cycles (regs CMOSDIV3_PHO) := by
  have hbypass := (writeD_bypass regs d1 d2).2
  have haddr : CMOSDIV3_1 + 3 = CMOSDIV3_BYPASS := rfl
  rw [readD, haddr, writeChannels_three (by decide),
    show CMOSDIV3_1 + ((if 2 < 1 ∨ 2 < 2 then 1 else 2) - 1) = CMOSDIV3_PHO from rfl,
    show 1#8 <<< (4 + ((if 2 < 1 ∨ 2 < 2 then 1 else 2) - 1)) = 0x20 from rfl]
  by_cases h2 : d2 = 0
  · rw [if_pos (hbypass.mpr h2), if_pos h2]
    rfl
  · rw [if_neg (mt hbypass.mp h2), if_neg h2, writeChannels_of_ne (by decide)]

end Channels

/-! ### The parameters of the loop -/

section Loop

variable {regs : Registers}

theorem ofInt_and_low (x : ℤ) {n : ℕ} (hn : n ≤ 8) :
    ((BitVec.ofInt 8 x &&& BitVec.ofNat 8 (2 ^ n - 1)).toNat : ℤ) = x % 2 ^ n := by
  have hdvd : ((2 ^ n : ℕ) : ℤ) ∣ ((2 ^ 8 : ℕ) : ℤ) :=
    Int.natCast_dvd_natCast.mpr (Nat.pow_dvd_pow 2 hn)
  have hpos : 0 ≤ x % ((2 ^ 8 : ℕ) : ℤ) := Int.emod_nonneg _ (by norm_num)
  rw [Lib.Word.toNat_and_low _ n hn, BitVec.toNat_ofInt, Int.natCast_emod,
    Int.toNat_of_nonneg hpos, Int.emod_emod_of_dvd _ hdvd]
  norm_num

theorem readA_writeA {a : ℤ} (hle : a ≤ 63) : readA (writeA regs a) = a ↔ 0 ≤ a := by
  have hlow := ofInt_and_low a (by norm_num : 6 ≤ 8)
  have hself : (BitVec.ofInt 8 a &&& 0x3f) &&& 0x3f = BitVec.ofInt 8 a &&& 0x3f := by
    rw [BitVec.and_assoc, BitVec.and_self]
  have hread : readA (writeA regs a) = a % 64 := by
    rw [readA, writeA, clkgenWr_self, hself]
    exact hlow
  rw [hread]
  omega

theorem split_bytes {x : ℤ} {k : ℕ} (hk : k ≤ 6) (hpos : 0 ≤ x) (hlt : x < 256 * 2 ^ k) :
    (((BitVec.ofInt 8 x &&& 0xff).toNat ||| ((BitVec.ofInt 8 (x >>> (8 : ℕ)) &&& 0x3f) &&&
      BitVec.ofNat 8 (2 ^ k - 1)).toNat <<< 8 : ℕ) : ℤ) = x := by
  have hlow : ((BitVec.ofInt 8 x &&& 0xff).toNat : ℤ) = x % 256 := ofInt_and_low x le_rfl
  have hsix : ((BitVec.ofInt 8 (x >>> (8 : ℕ)) &&& 0x3f).toNat : ℤ) = (x >>> (8 : ℕ)) % 64 :=
    ofInt_and_low (x >>> (8 : ℕ)) (by norm_num : 6 ≤ 8)
  have hhigh : ((x >>> (8 : ℕ) : ℤ)) = x / 256 := by
    rw [Int.shiftRight_eq_div_pow]
    norm_num
  have hdiv : x / 256 < 2 ^ k := Int.ediv_lt_of_lt_mul (by norm_num) (by rw [mul_comm]; exact hlt)
  have hle : (2 : ℤ) ^ k ≤ 2 ^ 6 := pow_le_pow_right₀ (by norm_num) hk
  have hbyte : (BitVec.ofInt 8 x &&& 0xff).toNat < 2 ^ 8 := BitVec.isLt _
  rw [Nat.or_comm, ← Nat.shiftLeft_add_eq_or_of_lt hbyte, Nat.shiftLeft_eq,
    Lib.Word.toNat_and_low _ k (by omega)]
  simp only [Nat.cast_add, Nat.cast_mul, Int.natCast_emod, Nat.cast_pow, Nat.cast_ofNat]
  rw [hlow, hsix, hhigh, Int.emod_eq_of_lt (by omega : 0 ≤ x / 256) (by omega),
    Int.emod_eq_of_lt (by omega : 0 ≤ x / 256) hdiv]
  omega

theorem readB_writeB {b : ℤ} (hpos : 0 < b) (hle : b ≤ 8191) : readB (writeB regs b) = b := by
  rw [readB, writeB, clkgenWr_self, clkgenWr_of_ne (by decide), clkgenWr_self]
  exact split_bytes (k := 5) (by norm_num) hpos.le (by norm_num; omega)

theorem readR_writeR {r : ℤ} (hpos : 0 < r) (hle : r ≤ 16383) : readR (writeR regs r) = r := by
  rw [readR, writeR, clkgenWr_self, clkgenWr_of_ne (by decide), clkgenWr_self]
  exact split_bytes (k := 6) le_rfl hpos.le (by norm_num; omega)

theorem readP_writeP {p : ℤ} (h : p = 4 ∨ p = 8 ∨ p = 16 ∨ p = 32) :
    readP (writeP regs p) = p ↔ p = 16 ∨ p = 32 := by
  have hcode : writeP regs p PLL1 &&& 0x7 = prescaler p := by
    rw [writeP, clkgenOr_self, clkgenAnd_self]
    refine Lib.Word.update_and_self ?_
    obtain rfl | rfl | rfl | rfl := h <;> decide
  rw [readP, hcode]
  obtain rfl | rfl | rfl | rfl := h <;> decide

theorem readDvco_writeDvco (pll : AdPll) :
    readDvco (writeDvco regs pll).1 = if pll.dvco = 0 ∧ pll.external ≠ 0 then 1
      else if 2 ≤ pll.dvco ∧ pll.dvco ≤ 6 then pll.dvco else 2 := by
  have hbits : ∀ x : BitVec 8, (x ||| 0x1) &&& 0x1 ≠ 0 ∧ (x &&& ~~~0x1) &&& 0x1 = 0 := by
    decide +kernel
  -- a divider from two to six in its three bits
  have hfield : ∀ d : ℤ, 2 ≤ d → d ≤ 6 →
      (((BitVec.ofInt 8 (d - 2) &&& 0x7) &&& 0x7).toNat : ℤ) = d - 2 := by
    intro d h2 h6
    have hlow := ofInt_and_low (d - 2) (by norm_num : 3 ≤ 8)
    rw [BitVec.and_assoc, BitVec.and_self]
    refine hlow.trans ?_
    omega
  unfold writeDvco
  split
  · dsimp only
    rw [readDvco, clkgenOr_self, if_pos (hbits _).1]
  · dsimp only
    rw [readDvco, clkgenAnd_self, if_neg (not_not.mpr (hbits _).2), clkgenAnd_of_ne (by decide),
      clkgenWr_self]
    by_cases hrange : 2 ≤ pll.dvco ∧ pll.dvco ≤ 6
    · have h0 : ¬ pll.dvco = 0 := by omega
      have hout : ¬ (pll.dvco < 2 ∨ 6 < pll.dvco) := by omega
      have hval := hfield pll.dvco hrange.1 hrange.2
      rw [if_pos hrange, if_neg h0, if_neg hout]
      dsimp only
      rw [if_neg (by omega), Nat.cast_add, hval]
      omega
    · rw [if_neg hrange]
      have htwo : (if (if pll.dvco = 0 then { pll with dvco := 2 } else pll).dvco < 2 ∨
          6 < (if pll.dvco = 0 then { pll with dvco := 2 } else pll).dvco then
          { (if pll.dvco = 0 then { pll with dvco := 2 } else pll) with dvco := 2 }
          else (if pll.dvco = 0 then { pll with dvco := 2 } else pll)).dvco = 2 := by
        by_cases h0 : pll.dvco = 0
        · simp [h0]
        · rw [if_neg h0, if_pos (by omega)]
      rw [htwo]
      decide

end Loop

/-! ### The output divider -/

section Dividers

variable {regs : Registers} {pll : AdPll}

theorem divisor_bypassOne (d : ℤ) : divisor (bypassOne d) = divisor d := by
  unfold divisor bypassOne
  by_cases h1 : d = 1
  · simp [h1]
  · rw [if_neg h1]

theorem bypassOne_range {d n : ℤ} (h0 : 0 ≤ d) (hn : d ≤ n) :
    bypassOne d = 0 ∨ 2 ≤ bypassOne d ∧ bypassOne d ≤ n := by
  unfold bypassOne
  split <;> omega

theorem checkPllDividers_perm (pll : AdPll) :
    (checkPllDividers pll).d1 = bypassOne pll.d1 ∧ (checkPllDividers pll).d2 = bypassOne pll.d2 ∨
      (checkPllDividers pll).d1 = bypassOne pll.d2 ∧
        (checkPllDividers pll).d2 = bypassOne pll.d1 := by
  unfold checkPllDividers
  dsimp only
  split
  · exact Or.inl ⟨rfl, rfl⟩
  · split
    · next h => exact Or.inr ⟨rfl, h.1.symm⟩
    · split
      · exact Or.inr ⟨rfl, rfl⟩
      · exact Or.inl ⟨rfl, rfl⟩

theorem checkPllDividers_mul (pll : AdPll) :
    divisor (checkPllDividers pll).d1 * divisor (checkPllDividers pll).d2 =
      divisor pll.d1 * divisor pll.d2 := by
  obtain ⟨h1, h2⟩ | ⟨h1, h2⟩ := checkPllDividers_perm pll
  · rw [h1, h2, divisor_bypassOne, divisor_bypassOne]
  · rw [h1, h2, divisor_bypassOne, divisor_bypassOne, mul_comm]

theorem channelDivider_eq {d : ℤ} (h : d = 0 ∨ 2 ≤ d ∧ d ≤ 32) :
    channelDivider d = divisor d := by
  have hhalves : ∀ n : ℕ, n < 31 → cycles (halves ((n : ℤ) + 2)) = n + 2 := by
    decide +kernel
  obtain rfl | ⟨h2, h32⟩ := h
  · rfl
  · obtain ⟨n, hn⟩ := Int.eq_ofNat_of_zero_le (by omega : 0 ≤ d - 2)
    obtain rfl : d = (n : ℤ) + 2 := by omega
    have hne : ¬ (n : ℤ) + 2 = 0 := by omega
    rw [channelDivider, divisor, if_neg hne, if_neg hne, hhalves n (by omega)]
    push_cast
    ring

theorem vcoDivider_eq (hlow : pll.external ≠ 0 ∨ 2 ≤ pll.dvco) (h0 : 0 ≤ pll.dvco)
    (h6 : pll.dvco ≤ 6) : pll.vcoDivider = divisor pll.dvco := by
  unfold AdPll.vcoDivider divisor
  by_cases hz : pll.dvco = 0
  · obtain hext | h2 := hlow
    · simp [hz, hext]
    · omega
  · rw [if_neg hz]
    by_cases hone : pll.dvco = 1
    · obtain hext | h2 := hlow
      · rw [if_pos ⟨hone, hext⟩, hone]
      · omega
    · rw [if_neg (by tauto), if_pos (by omega)]

end Dividers

/-! ### What is read back -/

section ReadBack

variable {regs : Registers} {pll : AdPll}

theorem vcoDivider_checked (regs : Registers) (pll : AdPll) :
    readDvco (writeDvco regs (checkPllDividers pll)).1 = pll.vcoDivider := by
  obtain ⟨-, -, -, -, hdvco, hext, -⟩ := checkPllDividers_conf pll
  rw [readDvco_writeDvco, hdvco, hext]
  unfold AdPll.vcoDivider divisor bypassOne
  by_cases h1 : pll.dvco = 1
  · by_cases he : pll.external = 0 <;> simp [h1, he]
  · by_cases h0 : pll.dvco = 0
    · by_cases he : pll.external = 0 <;> simp [h0, he]
    · simp [h0, h1]

/-- The registers after `applyPllConf`. -/
def applied (regs : Registers) (pll : AdPll) : Registers :=
  writeChannels (writeDvco (writeLoop regs (checkPllDividers pll)) (checkPllDividers pll)).1
    (checkPllDividers pll).d1 (checkPllDividers pll).d2

theorem applied_loop {addr : ℕ} (h : addr ∉ [CMOSDIV3_1, CMOSDIV3_2, CMOSDIV3_BYPASS,
    CMOSDIV4_1, CMOSDIV4_2, CMOSDIV4_BYPASS, PLL3, UPDATE_ALL])
    (hvco : addr ≠ VCO_DIVIDER) (hclk : addr ≠ INPUT_CLKS) :
    applied regs pll addr = writeLoop regs (checkPllDividers pll) addr := by
  rw [applied, writeChannels_of_ne h, writeDvco_of_ne hvco hclk]

theorem readA_applied (hle : pll.a ≤ 63) : readA (applied regs pll) = pll.a ↔ 0 ≤ pll.a := by
  have hreg : applied regs pll ACOUNT = writeA (clkgenWr regs INPUT_CLKS
      (if (checkPllDividers pll).external ≠ 0 then 0x9 else 0x2)) pll.a ACOUNT := by
    rw [applied_loop (by decide) (by decide) (by decide), writeLoop, writeP_of_ne (by decide),
      writeR_of_ne (by decide) (by decide), writeB_of_ne (by decide) (by decide),
      (checkPllDividers_conf pll).1]
  have hread : readA (applied regs pll) = readA (writeA (clkgenWr regs INPUT_CLKS
      (if (checkPllDividers pll).external ≠ 0 then 0x9 else 0x2)) pll.a) := by
    rw [readA, readA, hreg]
  rw [hread]
  exact readA_writeA hle

theorem readB_applied (hpos : 0 < pll.b) (hle : pll.b ≤ 8191) :
    readB (applied regs pll) = pll.b := by
  have hreg : ∀ addr ∈ [BCOUNT_LSB, BCOUNT_MSB], applied regs pll addr =
      writeB (writeA (clkgenWr regs INPUT_CLKS
        (if (checkPllDividers pll).external ≠ 0 then 0x9 else 0x2)) (checkPllDividers pll).a)
        pll.b addr := by
    intro addr haddr
    simp only [List.mem_cons, List.not_mem_nil, or_false] at haddr
    obtain rfl | rfl := haddr <;>
      rw [applied_loop (by decide) (by decide) (by decide), writeLoop, writeP_of_ne (by decide),
        writeR_of_ne (by decide) (by decide), (checkPllDividers_conf pll).2.1]
  rw [readB, hreg BCOUNT_LSB (by simp), hreg BCOUNT_MSB (by simp)]
  exact readB_writeB hpos hle

theorem readR_applied (hpos : 0 < pll.r) (hle : pll.r ≤ 16383) :
    readR (applied regs pll) = pll.r := by
  have hreg : ∀ addr ∈ [RCOUNT_LSB, RCOUNT_MSB], applied regs pll addr =
      writeR (writeB (writeA (clkgenWr regs INPUT_CLKS
        (if (checkPllDividers pll).external ≠ 0 then 0x9 else 0x2)) (checkPllDividers pll).a)
        (checkPllDividers pll).b) pll.r addr := by
    intro addr haddr
    simp only [List.mem_cons, List.not_mem_nil, or_false] at haddr
    obtain rfl | rfl := haddr <;>
      rw [applied_loop (by decide) (by decide) (by decide), writeLoop, writeP_of_ne (by decide),
        (checkPllDividers_conf pll).2.2.2.1]
  rw [readR, hreg RCOUNT_LSB (by simp), hreg RCOUNT_MSB (by simp)]
  exact readR_writeR hpos hle

theorem readP_applied (hp : pll.p = 4 ∨ pll.p = 8 ∨ pll.p = 16 ∨ pll.p = 32) :
    readP (applied regs pll) = pll.p ↔ pll.p = 16 ∨ pll.p = 32 := by
  have hreg : applied regs pll PLL1 = writeP (writeR (writeB (writeA (clkgenWr regs INPUT_CLKS
      (if (checkPllDividers pll).external ≠ 0 then 0x9 else 0x2)) (checkPllDividers pll).a)
      (checkPllDividers pll).b) (checkPllDividers pll).r) pll.p PLL1 := by
    rw [applied_loop (by decide) (by decide) (by decide), writeLoop,
      (checkPllDividers_conf pll).2.2.1]
  rw [readP, hreg]
  exact readP_writeP hp

theorem readDvco_applied : readDvco (applied regs pll) = pll.vcoDivider := by
  rw [← vcoDivider_checked (writeLoop regs (checkPllDividers pll)) pll, applied, readDvco,
    readDvco, writeChannels_of_ne (by decide), writeChannels_of_ne (by decide)]

theorem writeLoop_pho (regs : Registers) (pll : AdPll) :
    (writeDvco (writeLoop regs pll) pll).1 CMOSDIV3_PHO = regs CMOSDIV3_PHO := by
  rw [writeDvco_of_ne (by decide) (by decide), writeLoop, writeP_of_ne (by decide),
    writeR_of_ne (by decide) (by decide), writeB_of_ne (by decide) (by decide), writeA,
    clkgenWr_of_ne (by decide), clkgenWr_of_ne (by decide)]

theorem cycles_pos (val : BitVec 8) : ((cycles val : ℕ) : ℤ) ≠ 0 := by
  unfold cycles
  omega

theorem vcoDivider_ne_zero (pll : AdPll) : pll.vcoDivider ≠ 0 := by
  unfold AdPll.vcoDivider
  split
  · norm_num
  · split <;> omega

theorem divisor_of_ne {d : ℤ} (h : d ≠ 0) : divisor d = d := if_neg h

theorem totalDivider_applied : (getPllConf (applied regs pll) pll).totalDivider =
    pll.vcoDivider * channelDivider (checkPllDividers pll).d1 *
      (if (checkPllDividers pll).d2 = 0 then 1 else cycles (regs CMOSDIV3_PHO)) := by
  have hfirst : channelDivider (checkPllDividers pll).d1 ≠ 0 := by
    unfold channelDivider
    split
    · norm_num
    · exact cycles_pos _
  have hsecond : ((if (checkPllDividers pll).d2 = 0 then 1
      else cycles (regs CMOSDIV3_PHO) : ℕ) : ℤ) ≠ 0 := by
    split
    · norm_num
    · exact cycles_pos _
  unfold AdPll.totalDivider getPllConf
  dsimp only
  rw [readDvco_applied, applied, readD_first, readD_second, writeLoop_pho,
    divisor_of_ne (vcoDivider_ne_zero pll), divisor_of_ne hfirst, divisor_of_ne hsecond]

theorem checkPll_bounds (h : checkPll pll = true) : pll.a ≤ 63 ∧
    (pll.p = 4 ∨ pll.p = 8 ∨ pll.p = 16 ∨ pll.p = 32) ∧ (0 < pll.b ∧ pll.b ≤ 8191) ∧
    0 < pll.r ∧ pll.r ≤ 16383 := by
  simp only [checkPll, Bool.not_eq_true', Bool.or_eq_false_iff, Bool.and_eq_false_iff,
    decide_eq_false_iff_not, bne_eq_false_iff_eq] at h
  omega

/-- **The round trip** of an accepted configuration is exactly `ReadsBack`; for dividers that the
chip has, it is that the second channel divider is not used or the phase register happens to hold
it. -/
theorem getPllConf_iff (h : checkPll pll = true) :
    ((∃ r, applyPllConf regs pll = some r ∧ SamePll pll (getPllConf r.1 pll)) ↔
      ReadsBack regs pll) ∧
    (0 ≤ pll.dvco → pll.dvco ≤ 6 → (pll.external ≠ 0 ∨ 2 ≤ pll.dvco) → 0 ≤ pll.d1 →
      pll.d1 ≤ 32 → 0 ≤ pll.d2 → pll.d2 ≤ 32 →
      (ReadsBack regs pll ↔ refCycles pll.inputFreq ≠ 0 ∧ 0 ≤ pll.a ∧
        (pll.p = 16 ∨ pll.p = 32) ∧ ((checkPllDividers pll).d2 = 0 ∨
          (checkPllDividers pll).d2 = cycles (regs CMOSDIV3_PHO)))) := by
  obtain ⟨ha, hp, hb, hr⟩ := checkPll_bounds h
  constructor
  · constructor
    · rintro ⟨r, happly, hsame⟩
      have href : refCycles pll.inputFreq ≠ 0 := by
        intro hzero
        rw [applyPllConf_none hzero] at happly
        cases happly
      rw [applyPllConf_eq href, Option.some.injEq] at happly
      subst happly
      change SamePll pll (getPllConf (applied regs pll) pll) at hsame
      have htotal := hsame.total
      rw [totalDivider_applied] at htotal
      exact ⟨href, (readA_applied ha).mp hsame.a, (readP_applied hp).mp hsame.p, htotal⟩
    · intro hback
      have hsame : SamePll pll (getPllConf (applied regs pll) pll) :=
        { a := (readA_applied ha).mpr hback.a_nonneg
          b := readB_applied hb.1 hb.2
          p := (readP_applied hp).mpr hback.prescaler
          r := readR_applied hr.1 hr.2
          total := totalDivider_applied.trans hback.dividers }
      exact ⟨_, applyPllConf_eq hback.reference, hsame⟩
  · intro h0 h6 hlow h10 h132 h20 h232
    have hrange : (checkPllDividers pll).d1 = 0 ∨
        2 ≤ (checkPllDividers pll).d1 ∧ (checkPllDividers pll).d1 ≤ 32 := by
      obtain ⟨h1, -⟩ | ⟨h1, -⟩ := checkPllDividers_perm pll
      · rw [h1]
        exact bypassOne_range h10 h132
      · rw [h1]
        exact bypassOne_range h20 h232
    have hfactor : pll.vcoDivider * divisor (checkPllDividers pll).d1 ≠ 0 := by
      refine mul_ne_zero (vcoDivider_ne_zero pll) ?_
      unfold divisor
      split <;> omega
    have htotal : pll.totalDivider = pll.vcoDivider * divisor (checkPllDividers pll).d1 *
        divisor (checkPllDividers pll).d2 := by
      rw [AdPll.totalDivider, vcoDivider_eq hlow h0 h6, mul_assoc, mul_assoc,
        checkPllDividers_mul]
    have hdividers : pll.vcoDivider * channelDivider (checkPllDividers pll).d1 *
        (if (checkPllDividers pll).d2 = 0 then 1 else cycles (regs CMOSDIV3_PHO)) =
          pll.totalDivider ↔ (checkPllDividers pll).d2 = 0 ∨
            (checkPllDividers pll).d2 = cycles (regs CMOSDIV3_PHO) := by
      rw [channelDivider_eq hrange, htotal, mul_right_inj' hfactor]
      by_cases hz : (checkPllDividers pll).d2 = 0
      · simp [hz, divisor]
      · rw [if_neg hz, divisor_of_ne hz, eq_comm, or_iff_right hz]
    constructor
    · intro hback
      exact ⟨hback.reference, hback.a_nonneg, hback.prescaler, hdividers.mp hback.dividers⟩
    · rintro ⟨href, hpos, hpre, hdiv⟩
      exact ⟨href, hpos, hpre, hdividers.mpr hdiv⟩

/-- The configuration for 10 MHz from the internal oscillator. -/
def pllTenMega : AdPll where
  a := 0
  b := 4375
  p := 16
  r := 1000
  dvco := 2
  d1 := 14
  d2 := 1
  external := 0
  inputFreq := 40000000

theorem getPllConf_tenMega :
    ∃ r, applyPllConf (fun _ => 0) pllTenMega = some r ∧
      SamePll pllTenMega (getPllConf r.1 pllTenMega) :=
  (@getPllConf_iff (fun _ => 0) pllTenMega (by decide)).1.mpr
    ⟨by decide, by decide, Or.inl rfl, by decide⟩

/-- Two channel dividers by four: the second one is read as two from the phase register. -/
theorem twoDividers_not_same :
    ∃ (regs : Registers) (pll : AdPll), checkPll pll = true ∧ ∃ r,
      applyPllConf regs pll = some r ∧ ¬ SamePll pll (getPllConf r.1 pll) := by
  refine ⟨fun _ => 0, { pllTenMega with d1 := 4, d2 := 4 }, by decide, _,
    applyPllConf_eq (by decide), ?_⟩
  intro hsame
  have htotal := hsame.total
  revert htotal
  decide +kernel

end ReadBack

end KernelModules.Cvorg
