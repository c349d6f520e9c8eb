import Mathlib.Tactic
import KernelModules.Cvorg.ClockGenerator
import KernelModules.Cvorg.StoreSequence
import KernelModules.Lib.CheckedInt

/-!
# The dividers and the arithmetic of the CVORG clock

A configuration of the clock comes from the user.  The driver checks the loop, brings the channel
dividers in order, waits for the calibration and compares the sampling frequency with the one that
was asked for.

* `InOrder` are the rules of the chip for the channel dividers, `Normalised` says that
  `checkPllDividers` follows them; it does when the dividers are both even or both odd
  (`normalised_iff`);
* `calibVcoSleep` and `pollSampfreq` are computed in `int`, where an overflow or a division by zero
  has no result; `storePll` is a request to set the configuration;
* `storePll_iff` says which configurations are safe: the input frequency is not checked.
-/

namespace KernelModules.Cvorg

open KernelModules.Lib KernelModules.Lib.CheckedInt

/-! ### The channel dividers -/

/-- The rules for the channel dividers: if one of them is bypassed it is the second one, and if they
are used both and one of them is even it is the second one. -/
structure InOrder (pll : AdPll) : Prop where
  bypassed : pll.d1 = 0 → pll.d2 = 0
  even : pll.d1 ≠ 0 → pll.d2 ≠ 0 → pll.d1.tmod 2 = 0 → pll.d2.tmod 2 = 0

/-- The dividers are brought in order once and for all, and divide by the same as before. -/
structure Normalised (pll : AdPll) : Prop where
  total : (checkPllDividers pll).totalDivider = pll.totalDivider
  inOrder : InOrder (checkPllDividers pll)
  idempotent : checkPllDividers (checkPllDividers pll) = checkPllDividers pll

theorem bypassOne_idem (d : ℤ) : bypassOne (bypassOne d) = bypassOne d := by
  unfold bypassOne
  split
  · rfl
  · rfl

/-- The channel dividers in order, when none of them is one. -/
def orderDividers (d1 d2 : ℤ) : ℤ × ℤ :=
  if d1 = 0 ∧ d2 = 0 then (d1, d2)
  else if d1 = 0 ∧ d2 ≠ 0 then (d2, 0)
  else if d1.tmod 2 ≠ 0 ∧ d2.tmod 2 = 0 then (d2, d1)
  else (d1, d2)

theorem checkPllDividers_eq (pll : AdPll) : checkPllDividers pll = { pll with
    dvco := bypassOne pll.dvco
    d1 := (orderDividers (bypassOne pll.d1) (bypassOne pll.d2)).1
    d2 := (orderDividers (bypassOne pll.d1) (bypassOne pll.d2)).2 } := by
  unfold checkPllDividers orderDividers
  dsimp only
  split
  · rfl
  · split
    · rfl
    · split <;> rfl

theorem orderDividers_bypass {d1 d2 : ℤ} (h1 : bypassOne d1 = d1) (h2 : bypassOne d2 = d2) :
    bypassOne (orderDividers d1 d2).1 = (orderDividers d1 d2).1 ∧
      bypassOne (orderDividers d1 d2).2 = (orderDividers d1 d2).2 := by
  unfold orderDividers
  split
  · exact ⟨h1, h2⟩
  · split
    · exact ⟨h2, rfl⟩
    · split
      · exact ⟨h2, h1⟩
      · exact ⟨h1, h2⟩

section Order

variable {d1 d2 : ℤ}

theorem orderDividers_same (h : d1.tmod 2 = 0 ↔ d2.tmod 2 = 0) :
    orderDividers d1 d2 = if d1 = 0 then (d2, 0) else (d1, d2) := by
  unfold orderDividers
  by_cases h1 : d1 = 0
  · by_cases h2 : d2 = 0
    · rw [if_pos ⟨h1, h2⟩, if_pos h1, h1, h2]
    · rw [if_neg fun h' => h2 h'.2, if_pos ⟨h1, h2⟩, if_pos h1]
  · rw [if_neg fun h' => h1 h'.1, if_neg fun h' => h1 h'.1, if_neg fun h' => h'.1 (h.mpr h'.2),
      if_neg h1]

theorem orderDividers_odd (ho : d1.tmod 2 ≠ 0) (he : d2.tmod 2 = 0) :
    orderDividers d1 d2 = (d2, d1) := by
  have h1 : d1 ≠ 0 := by
    rintro rfl
    exact ho rfl
  unfold orderDividers
  rw [if_neg fun h' => h1 h'.1, if_neg fun h' => h1 h'.1, if_pos ⟨ho, he⟩]

theorem orderDividers_even (he : d1.tmod 2 = 0) (ho : d2.tmod 2 ≠ 0) :
    orderDividers d1 d2 = if d1 = 0 then (d2, 0) else (d1, d2) := by
  have h2 : d2 ≠ 0 := by
    rintro rfl
    exact ho rfl
  unfold orderDividers
  by_cases h1 : d1 = 0
  · rw [if_neg fun h' => h2 h'.2, if_pos ⟨h1, h2⟩, if_pos h1]
  · rw [if_neg fun h' => h1 h'.1, if_neg fun h' => h1 h'.1, if_neg fun h' => h'.1 he, if_neg h1]

end Order

theorem totalDivider_checked (pll : AdPll) :
    (checkPllDividers pll).totalDivider = pll.totalDivider := by
  have hdvco : (checkPllDividers pll).dvco = bypassOne pll.dvco := by rw [checkPllDividers_eq]
  unfold AdPll.totalDivider
  rw [mul_assoc, mul_assoc, checkPllDividers_mul, hdvco, divisor_bypassOne]

theorem checked_twice (pll : AdPll) : checkPllDividers (checkPllDividers pll) = { pll with
    dvco := bypassOne pll.dvco
    d1 := (orderDividers (orderDividers (bypassOne pll.d1) (bypassOne pll.d2)).1
      (orderDividers (bypassOne pll.d1) (bypassOne pll.d2)).2).1
    d2 := (orderDividers (orderDividers (bypassOne pll.d1) (bypassOne pll.d2)).1
      (orderDividers (bypassOne pll.d1) (bypassOne pll.d2)).2).2 } := by
  obtain ⟨h1, h2⟩ := orderDividers_bypass (bypassOne_idem pll.d1) (bypassOne_idem pll.d2)
  rw [checkPllDividers_eq, checkPllDividers_eq]
  dsimp only
  rw [h1, h2, bypassOne_idem]

/-- **The channel dividers** are brought in order exactly when they are both even or both odd, a
bypassed one being even. -/
theorem normalised_iff (pll : AdPll) : Normalised pll ↔
    ((bypassOne pll.d1).tmod 2 = 0 ↔ (bypassOne pll.d2).tmod 2 = 0) := by
  have htwice := checked_twice pll
  have honce := checkPllDividers_eq pll
  generalize hb1 : bypassOne pll.d1 = b1 at htwice honce
  generalize hb2 : bypassOne pll.d2 = b2 at htwice honce
  constructor
  · intro h
    have hin := h.inOrder
    have hidem := h.idempotent
    rw [htwice, honce] at hidem
    rw [honce] at hin
    by_cases he1 : b1.tmod 2 = 0
    · refine ⟨fun _ => ?_, fun _ => he1⟩
      by_contra ho2
      have h2 : b2 ≠ 0 := by
        rintro rfl
        exact ho2 rfl
      rw [orderDividers_even he1 ho2] at hin hidem
      by_cases h1 : b1 = 0
      · -- the odd one comes first, and is swapped the next time
        rw [if_pos h1, orderDividers_odd ho2 rfl] at hidem
        exact h2 (congrArg AdPll.d2 hidem)
      · rw [if_neg h1] at hin
        exact ho2 (hin.even h1 h2 he1)
    · refine ⟨fun he => absurd he he1, fun he2 => ?_⟩
      have h1 : b1 ≠ 0 := by
        rintro rfl
        exact he1 rfl
      rw [orderDividers_odd he1 he2] at hin
      by_cases h2 : b2 = 0
      · exact absurd (hin.bypassed h2) h1
      · exact absurd (hin.even h2 h1 he2) he1
  · intro h
    have horder := orderDividers_same h
    refine ⟨totalDivider_checked pll, ?_, ?_⟩
    · rw [honce, horder]
      by_cases h1 : b1 = 0
      · rw [if_pos h1]
        exact ⟨fun _ => rfl, fun _ hne => absurd rfl hne⟩
      · rw [if_neg h1]
        exact ⟨fun h' => absurd h' h1, fun _ _ => h.mp⟩
    · rw [htwice, honce, horder]
      by_cases h1 : b1 = 0
      · have he2 : b2.tmod 2 = 0 := h.mp (by rw [h1]; rfl)
        have hsame : orderDividers b2 0 = if b2 = 0 then (0, 0) else (b2, 0) :=
          orderDividers_same ⟨fun _ => rfl, fun _ => he2⟩
        rw [if_pos h1, hsame]
        by_cases h2 : b2 = 0
        · rw [if_pos h2, h2]
        · rw [if_neg h2]
      · rw [if_neg h1, horder, if_neg h1]

/-- A divider by three and a bypassed one: the second is made the first. -/
theorem dividers_swapped : ¬ ∀ pll, Normalised pll := by
  intro h
  have hbypassed := (h { pllTenMega with d1 := 3, d2 := 0 }).inOrder.bypassed
  exact absurd (hbypassed (by decide)) (by decide)

/-! ### The arithmetic of a request -/

/-- `calib_vco_sleep`: the milliseconds it waits. -/
def calibVcoSleep (r freqref : ℤ) : Option ℤ := do
  let freqref ← ceilQuot freqref 1000
  let interval ← checked (4400 * r)
  let interval ← checked (interval * 2)
  let interval ← ceilQuot interval freqref
  let interval ← ceilQuot interval 10
  let ticks ← checked (interval + 1)
  checked (ticks * 10)

/-- `cvorg_absdiff` in `int`. -/
def absdiffInt (s1 s2 : ℤ) : Option ℤ := if s2 < s1 then checked (s1 - s2) else checked (s2 - s1)

/-- `freq /= d` for a divider that is not bypassed. -/
def divideBy (freq d : ℤ) : Option ℤ := if d = 0 then some freq else quot freq d

/-- The loop of `cvorg_poll_sampfreq`, with the readings of the register; it gives up after the
`left` next ones. -/
def pollLoop (freq : ℤ) (reads : ℕ → U32) : ℕ → ℕ → Option Bool
  | left, k => do
    let diff ← absdiffInt ((reads k / 10000).toNat : ℤ) freq
    if diff ≤ 1 then some true
    else
      match left with
      | 0 => some false
      | left + 1 => pollLoop freq reads left (k + 1)

/-- `cvorg_poll_sampfreq`: whether the frequency is reached.  The product is one of unsigned
numbers. -/
def pollSampfreq (pll : AdPll) (extClkPll : ℤ) (reads : ℕ → U32) : Option Bool := do
  let n ← checked (pll.p * pll.b)
  let n ← checked (n + pll.a)
  if pll.external ≠ 0 then some true
  else
    let inputFreq : U32 := if extClkPll ≠ 0 then BitVec.ofInt 32 pll.inputFreq else 40000000
    let freq := (inputFreq / 10000 * BitVec.ofInt 32 n).toInt
    let freq ← divideBy freq pll.r
    let freq ← divideBy freq pll.dvco
    let freq ← divideBy freq pll.d1
    let freq ← divideBy freq pll.d2
    pollLoop freq reads 100 0

/-- A configuration as the user writes it: ten values of `int`. -/
structure PllRequest where
  pll : AdPll
  extClkPll : ℤ
  ints : ∀ x ∈ [pll.a, pll.b, pll.p, pll.r, pll.dvco, pll.d1, pll.d2, pll.external, pll.inputFreq,
    extClkPll], InInt x

/-- `cvorg_pll`, setting, on a module that is not busy; `locked` says whether the calibration has
succeeded. -/
def storePll (regs : Registers) (request : PllRequest) (locked : Bool) (reads : ℕ → U32) :
    Option Bool :=
  if checkPll request.pll then
    match applyPllConf regs request.pll with
    | none => none
    | some (_, pll) => do
      let _ ← calibVcoSleep pll.r pll.inputFreq
      if locked then pollSampfreq pll request.extClkPll reads else some false
  else some false

/-- No request with this configuration overflows or divides by zero. -/
def SafeRequest (request : PllRequest) : Prop :=
  ∀ regs locked reads, storePll regs request locked reads ≠ none

/-! ### The calibration -/

theorem refCycles_eq_zero (freqref : ℤ) :
    refCycles freqref = 0 ↔ freqref = 0 ∨ -2000 < freqref ∧ freqref < -1000 := by
  have hmod := Int.tmod_add_tdiv_mul freqref 1000
  have hsign := Int.tmod_nonneg (a := freqref) 1000
  have hneg : freqref ≤ 0 → freqref.tmod 1000 ≤ 0 := fun h => by
    have hopp := Int.tmod_nonneg (a := -freqref) 1000 (by omega)
    rw [Int.neg_tmod] at hopp
    omega
  have hlt := Int.tmod_lt_of_pos freqref (b := 1000) (by decide)
  have hgt : -1000 < freqref.tmod 1000 := by
    have hopp := Int.tmod_lt_of_pos (-freqref) (b := 1000) (by decide)
    rw [Int.neg_tmod] at hopp
    omega
  unfold refCycles
  split <;> omega

theorem calibVcoSleep_some {r freqref : ℤ} (hr : 0 < r) (hr' : r ≤ 16383) (hf : InInt freqref)
    (href : refCycles freqref ≠ 0) : calibVcoSleep r freqref ≠ none := by
  have hbound := hf.natAbs_le
  have hmhz : ceilQuot freqref 1000 = some (refCycles freqref) := by
    refine ceilQuot_eq (by decide) (n := 2147483) ?_ (by decide)
    rw [Int.natAbs_tdiv]
    exact Nat.div_le_div_right hbound
  have hcycles : ceilQuot (4400 * r * 2) (refCycles freqref) = some _ :=
    ceilQuot_eq href (n := 144170400)
      ((Int.natAbs_tdiv_le_natAbs _ _).trans (by omega)) (by decide)
  have hinterval := (natAbs_ceil_le (4400 * r * 2) (refCycles freqref)).trans
    (Nat.succ_le_succ (Int.natAbs_tdiv_le_natAbs _ _))
  generalize (4400 * r * 2).tdiv (refCycles freqref) +
    (if (4400 * r * 2).tmod (refCycles freqref) = 0 then 0 else 1) = interval at hcycles hinterval
  have hquot : (interval.tdiv 10).natAbs ≤ 14417040 := by
    rw [Int.natAbs_tdiv]
    exact (Nat.div_le_div_right hinterval).trans (by
      show ((4400 * r * 2).natAbs + 1) / 10 ≤ 14417040
      omega)
  have htens : ceilQuot interval 10 = some _ := ceilQuot_eq (by decide) hquot (by decide)
  have hten := natAbs_ceil_le interval 10
  generalize interval.tdiv 10 + (if interval.tmod 10 = 0 then 0 else 1) = tens at htens hten
  unfold calibVcoSleep
  rw [hmhz, Option.bind_eq_bind, Option.bind_some, checked_eq (inInt_of_natAbs (by omega))]
  simp only [Option.bind_some]
  rw [checked_eq (inInt_of_natAbs (by omega)), Option.bind_some, hcycles, Option.bind_some, htens,
    Option.bind_some, checked_eq (inInt_of_natAbs (by omega)), Option.bind_some,
    checked_eq (inInt_of_natAbs (by omega))]
  exact Option.some_ne_none _

/-! ### The sampling frequency -/

theorem divideBy_some {freq d : ℤ} {n : ℕ} (hfreq : freq.natAbs ≤ n) (hn : n < 2 ^ 31) :
    ∃ freq', divideBy freq d = some freq' ∧ freq'.natAbs ≤ n := by
  unfold divideBy
  by_cases hd : d = 0
  · exact ⟨freq, if_pos hd, hfreq⟩
  · rw [if_neg hd, quot_eq (by omega) hd]
    exact ⟨_, rfl, (Int.natAbs_tdiv_le_natAbs freq d).trans hfreq⟩

theorem divideBy_pos {freq d : ℤ} (hfreq : InInt freq) (hd : 0 < d) :
    ∃ freq', divideBy freq d = some freq' ∧ freq'.natAbs ≤ 2 ^ 31 := by
  have hle := Int.natAbs_tdiv_le_natAbs freq d
  have hbound := hfreq.natAbs_le
  refine ⟨freq.tdiv d, ?_, hle.trans hbound⟩
  unfold divideBy quot
  rw [if_neg hd.ne', if_neg hd.ne']
  refine checked_eq ?_
  by_cases hsign : 0 ≤ freq
  · have hlt := hfreq.2
    exact inInt_of_natAbs (by omega)
  · have hneg : 0 ≤ (-freq).tdiv d := Int.tdiv_nonneg (by omega) hd.le
    rw [Int.neg_tdiv] at hneg
    exact ⟨by omega, by omega⟩

theorem divideBy_half {freq d : ℤ} (hfreq : freq.natAbs ≤ 2 ^ 31) (hd : 2 ≤ d) :
    ∃ freq', divideBy freq d = some freq' ∧ freq'.natAbs ≤ 2 ^ 30 := by
  have hle : (freq.tdiv d).natAbs ≤ 2 ^ 30 := by
    rw [Int.natAbs_tdiv]
    calc freq.natAbs / d.natAbs ≤ 2 ^ 31 / 2 := Nat.div_le_div hfreq (by omega) (by decide)
      _ = 2 ^ 30 := by decide
  refine ⟨freq.tdiv d, ?_, hle⟩
  unfold divideBy quot
  rw [if_neg (by omega), if_neg (by omega)]
  exact checked_eq (inInt_of_natAbs (by omega))

theorem pollLoop_some {freq : ℤ} (hfreq : freq.natAbs ≤ 2 ^ 30) (reads : ℕ → U32) (left k : ℕ) :
    pollLoop freq reads left k ≠ none := by
  have habs : ∀ k, ∃ diff, absdiffInt ((reads k / 10000).toNat : ℤ) freq = some diff := by
    intro k
    have hread : (reads k / 10000).toNat < 2 ^ 20 := by
      rw [BitVec.toNat_udiv]
      have hlt := (reads k).isLt
      show (reads k).toNat / 10000 < _
      omega
    unfold absdiffInt
    split
    · exact ⟨_, checked_eq (inInt_of_natAbs (by omega))⟩
    · exact ⟨_, checked_eq (inInt_of_natAbs (by omega))⟩
  induction left generalizing k with
  | zero =>
    obtain ⟨diff, hdiff⟩ := habs k
    rw [pollLoop, hdiff]
    simp only [Option.bind_eq_bind, Option.bind_some]
    split <;> exact Option.some_ne_none _
  | succ left ih =>
    obtain ⟨diff, hdiff⟩ := habs k
    rw [pollLoop, hdiff]
    simp only [Option.bind_eq_bind, Option.bind_some]
    split
    · exact Option.some_ne_none _
    · exact ih (k + 1)

theorem pollSampfreq_some {pll : AdPll} (hcheck : checkPll pll = true) (ha : InInt pll.a)
    (hdvco : pll.external = 0 → 2 ≤ pll.dvco) (extClkPll : ℤ) (reads : ℕ → U32) :
    pollSampfreq pll extClkPll reads ≠ none := by
  obtain ⟨hle, hp, ⟨hb, hb'⟩, hr, -⟩ := checkPll_bounds hcheck
  have hpb : 0 ≤ pll.p * pll.b ∧ pll.p * pll.b ≤ 32 * 8191 := by
    obtain h | h | h | h := hp <;> (rw [h]; constructor <;> omega)
  obtain ⟨hlow, -⟩ := ha
  unfold pollSampfreq
  rw [Option.bind_eq_bind, checked_eq (inInt_of_natAbs (by omega)), Option.bind_some,
    checked_eq ⟨by omega, by omega⟩, Option.bind_some]
  by_cases hext : pll.external = 0
  · rw [if_neg (by simpa using hext)]
    dsimp only
    generalize (_ * BitVec.ofInt 32 (pll.p * pll.b + pll.a) : U32) = product
    have hproduct : InInt product.toInt := ⟨BitVec.le_toInt product, BitVec.toInt_lt⟩
    obtain ⟨f1, h1, hb1⟩ := divideBy_pos hproduct hr
    obtain ⟨f2, h2, hb2⟩ := divideBy_half hb1 (hdvco hext)
    obtain ⟨f3, h3, hb3⟩ := divideBy_some (d := pll.d1) hb2 (by decide)
    obtain ⟨f4, h4, hb4⟩ := divideBy_some (d := pll.d2) hb3 (by decide)
    simp only [h1, h2, h3, h4, Option.bind_some]
    exact pollLoop_some hb4 reads 100 0
  · rw [if_pos hext]
    exact Option.some_ne_none _

/-! ### A request -/

/-- What the configuration in force has of the one that was asked for. -/
structure Keeps (pll pll' : AdPll) : Prop where
  a : pll'.a = pll.a
  b : pll'.b = pll.b
  p : pll'.p = pll.p
  r : pll'.r = pll.r
  external : pll'.external = pll.external
  inputFreq : pll'.inputFreq = pll.inputFreq

theorem checkPllDividers_keeps (pll : AdPll) : Keeps pll (checkPllDividers pll) := by
  rw [checkPllDividers_eq]
  exact ⟨rfl, rfl, rfl, rfl, rfl, rfl⟩

theorem writeDvco_keeps (regs : Registers) (pll : AdPll) : Keeps pll (writeDvco regs pll).2 ∧
    (pll.external = 0 → 2 ≤ (writeDvco regs pll).2.dvco) := by
  unfold writeDvco
  split
  · next h => exact ⟨⟨rfl, rfl, rfl, rfl, rfl, rfl⟩, fun hext => absurd hext h.2⟩
  · dsimp only
    split
    · split
      · exact ⟨⟨rfl, rfl, rfl, rfl, rfl, rfl⟩, fun _ => le_rfl⟩
      · exact ⟨⟨rfl, rfl, rfl, rfl, rfl, rfl⟩, fun _ => le_rfl⟩
    · split
      · exact ⟨⟨rfl, rfl, rfl, rfl, rfl, rfl⟩, fun _ => le_rfl⟩
      · next h => exact ⟨⟨rfl, rfl, rfl, rfl, rfl, rfl⟩, fun _ => by omega⟩

theorem Keeps.checkPll {pll pll' : AdPll} (h : Keeps pll pll') : checkPll pll' = checkPll pll := by
  unfold Cvorg.checkPll
  rw [h.a, h.b, h.p, h.r]

theorem Keeps.trans {pll pll' pll'' : AdPll} (h : Keeps pll pll') (h' : Keeps pll' pll'') :
    Keeps pll pll'' :=
  ⟨h'.a.trans h.a, h'.b.trans h.b, h'.p.trans h.p, h'.r.trans h.r, h'.external.trans h.external,
    h'.inputFreq.trans h.inputFreq⟩

/-- **A request** that passes the checks neither divides by zero nor overflows exactly when its
input frequency is not rounded to zero, which is never looked at. -/
theorem safeRequest_iff (request : PllRequest) (hcheck : checkPll request.pll = true) :
    SafeRequest request ↔ request.pll.inputFreq ≠ 0 ∧
      ¬ (-2000 < request.pll.inputFreq ∧ request.pll.inputFreq < -1000) := by
  rw [← not_or, ← refCycles_eq_zero]
  constructor
  · intro h hzero
    refine h (fun _ => 0) true (fun _ => 0) ?_
    unfold storePll
    rw [if_pos hcheck, applyPllConf_none hzero]
  · intro href regs locked reads
    unfold storePll
    rw [if_pos hcheck, applyPllConf_eq href]
    obtain ⟨hkeeps, hdvco⟩ := writeDvco_keeps (writeLoop regs (checkPllDividers request.pll))
      (checkPllDividers request.pll)
    have hfirst := checkPllDividers_keeps request.pll
    rw [hfirst.external] at hdvco
    replace hkeeps := hfirst.trans hkeeps
    dsimp only
    generalize (writeDvco (writeLoop regs (checkPllDividers request.pll))
      (checkPllDividers request.pll)).2 = pll at hkeeps hdvco
    obtain ⟨-, -, -, hr, hr'⟩ := checkPll_bounds hcheck
    have hfreq : InInt request.pll.inputFreq := request.ints _ (by simp)
    have ha : InInt request.pll.a := request.ints _ (by simp)
    have hcalib := calibVcoSleep_some hr hr' hfreq href
    obtain ⟨ticks, hticks⟩ := Option.ne_none_iff_exists'.mp hcalib
    rw [hkeeps.r, hkeeps.inputFreq, hticks, Option.bind_eq_bind, Option.bind_some]
    cases locked with
    | false => exact Option.some_ne_none _
    | true =>
      refine pollSampfreq_some (hkeeps.checkPll.trans hcheck) (hkeeps.a.symm ▸ ha) ?_ _ reads
      rw [hkeeps.external]
      exact hdvco

/-- The configuration for 10 MHz as a request. -/
def requestTenMega : PllRequest := ⟨pllTenMega, 0, by decide⟩

theorem safeRequest_tenMega : SafeRequest requestTenMega :=
  (safeRequest_iff requestTenMega (by decide)).mpr (by decide)

/-- The same without an input frequency, which the loop on the internal oscillator does not use. -/
theorem request_divides_by_zero :
    ¬ ∀ request : PllRequest, checkPll request.pll = true → SafeRequest request := by
  intro h
  refine h ⟨{ pllTenMega with inputFreq := 0 }, 0, by decide⟩ (by decide) (fun _ => 0) true
    (fun _ => 0) ?_
  unfold storePll
  rw [if_pos (by decide), applyPllConf_none (by decide)]

end KernelModules.Cvorg
