import Mathlib.Tactic
import KernelModules.Cvorg.GainOffset
import KernelModules.Lib.Interpolation

/-!
# The minimum length of a CVORG waveform

A waveform that repeats must have so many points that the module can load the next one while it is
played; the table `freqlimits` says how many at some sampling frequencies, and between these the
driver interpolates.

* `wvMinimum` is the minimum that `freqlimitCheck` computes, `minimumLength` the interpolation;
* `NoUnderflow` says that the segment which `freqlimitRange` takes starts at or below the frequency:
  it compares the wrong way round, and takes the next segment but for the last one
  (`noUnderflow_iff`);
* `LimitMet` is what the check is for.
-/

namespace KernelModules.Cvorg

open KernelModules.Lib KernelModules.Lib.Word

/-! ### The minimum that is computed -/

/-- The sampling frequency in MHz, rounded up. -/
def roundMhz (hz : U32) : U32 :=
  let mhz := hz / 1000000 + if hz % 1000000 = 0 then 0 else 1
  if 100 < mhz then 100 else mhz

/-- The interpolation of `cvorg_freqlimit_check`. -/
def wvMinimum (mhz : U32) : U32 :=
  let i := freqlimitRange mhz
  let p1 := freqlimits.getD i (0, 0)
  let p2 := freqlimits.getD (i + 1) (0, 0)
  let m := (p2.2 - p1.2) / (p2.1 - p1.1)
  if m = 0 then p2.2 else m * (mhz - p1.1) + p1.2

theorem freqlimitCheck_eq (length hz : U32) : freqlimitCheck length hz =
    if 100002000 < hz then true else decide (length < wvMinimum (roundMhz hz)) := rfl

/-- The segment starts at or below the frequency. -/
def NoUnderflow (mhz : U32) : Prop := (freqlimits.getD (freqlimitRange mhz) (0, 0)).1 ≤ mhz

instance (mhz : U32) : Decidable (NoUnderflow mhz) := inferInstanceAs (Decidable (_ ≤ _))

/-! ### The minimum that is meant -/

/-- The table in numbers. -/
def limitTable : List (ℕ × ℕ) := freqlimits.map fun p => (p.1.toNat, p.2.toNat)

/-- The interpolation between the neighbouring entries. -/
def minimumLength (mhz : ℕ) : ℕ := interpolate limitTable mhz

theorem limitTable_rising : Rising limitTable := by decide

/-- The number of points that are played. -/
def Wave.played (wv : Wave) : ℕ := wv.recurr.toNat * wv.form.length

/-- What the check of a waveform is for, at one sampling frequency. -/
structure LimitMet (hz : U32) (seq : Seq) (wv : Wave) : Prop where
  noUnderflow : NoUnderflow (roundMhz hz)
  entry : ∀ p ∈ freqlimits, roundMhz hz = p.1 → wvMinimum (roundMhz hz) = p.2
  monotone : ∀ hz', hz ≤ hz' → hz' ≤ 100002000 → wvMinimum (roundMhz hz) ≤ wvMinimum (roundMhz hz')
  interpolated : (wvMinimum (roundMhz hz)).toNat = minimumLength (roundMhz hz).toNat
  accepts : invalidFreqlimit seq wv hz = false ↔ (wvMinimum (roundMhz hz)).toNat ≤ wv.played

/-! ### Frequencies -/

theorem roundMhz_toNat {hz : U32} (hhz : hz ≤ 100002000) : (roundMhz hz).toNat =
    min 100 (hz.toNat / 1000000 + if hz.toNat % 1000000 = 0 then 0 else 1) := by
  have hle : hz.toNat ≤ 100002000 := hhz
  have hzero : hz % 1000000 = 0 ↔ hz.toNat % 1000000 = 0 := by
    rw [← BitVec.toNat_inj, BitVec.toNat_umod]
    rfl
  have hmhz : (hz / 1000000 + if hz % 1000000 = 0 then 0 else 1).toNat =
      hz.toNat / 1000000 + if hz.toNat % 1000000 = 0 then 0 else 1 := by
    have hdiv : (hz / 1000000).toNat = hz.toNat / 1000000 := BitVec.toNat_udiv
    by_cases h : hz % 1000000 = 0
    · rw [if_pos h, if_pos (hzero.mp h), Nat.add_zero, ← hdiv]
      exact congrArg BitVec.toNat (BitVec.add_zero _)
    · rw [if_neg h, if_neg fun h' => h (hzero.mpr h'), BitVec.toNat_add, hdiv]
      exact Nat.mod_eq_of_lt (by
        show hz.toNat / 1000000 + 1 < 2 ^ 32
        omega)
  unfold roundMhz
  dsimp only
  by_cases h : (100 : U32) < hz / 1000000 + if hz % 1000000 = 0 then 0 else 1
  · have hlt : 100 < hz.toNat / 1000000 + if hz.toNat % 1000000 = 0 then 0 else 1 := by
      rw [← hmhz]
      exact h
    rw [if_pos h, min_eq_left hlt.le]
    rfl
  · have hge : hz.toNat / 1000000 + (if hz.toNat % 1000000 = 0 then 0 else 1) ≤ 100 := by
      rw [← hmhz]
      exact Nat.le_of_not_lt h
    rw [if_neg h, hmhz, min_eq_right hge]

theorem roundMhz_mono {hz hz' : U32} (h : hz ≤ hz') (hhz : hz' ≤ 100002000) :
    (roundMhz hz).toNat ≤ (roundMhz hz').toNat := by
  have hle : hz.toNat ≤ hz'.toNat := h
  rw [roundMhz_toNat hhz, roundMhz_toNat (hle.trans hhz)]
  split <;> split <;> omega

theorem roundMhz_le {hz : U32} (hhz : hz ≤ 100002000) : (roundMhz hz).toNat ≤ 100 := by
  rw [roundMhz_toNat hhz]
  exact min_le_left _ _

theorem eighty_le_roundMhz {hz : U32} (hhz : hz ≤ 100002000) :
    80 ≤ (roundMhz hz).toNat ↔ 79000000 < hz.toNat := by
  rw [roundMhz_toNat hhz]
  split <;> omega

theorem minimum_cases : ∀ n < 101, (NoUnderflow (BitVec.ofNat 32 n) ↔ 80 ≤ n) ∧
    (80 ≤ n → (wvMinimum (BitVec.ofNat 32 n)).toNat = minimumLength n) := by
  decide +kernel

theorem noUnderflow_iff {hz : U32} (hhz : hz ≤ 100002000) :
    NoUnderflow (roundMhz hz) ↔ 79000000 < hz.toNat := by
  have hcase := (minimum_cases _ (Nat.lt_succ_of_le (roundMhz_le hhz))).1
  rw [BitVec.ofNat_toNat, BitVec.setWidth_eq, eighty_le_roundMhz hhz] at hcase
  exact hcase

theorem wvMinimum_eq {hz : U32} (hhz : hz ≤ 100002000) (hfast : 79000000 < hz.toNat) :
    (wvMinimum (roundMhz hz)).toNat = minimumLength (roundMhz hz).toNat := by
  have hcase := (minimum_cases _ (Nat.lt_succ_of_le (roundMhz_le hhz))).2
    ((eighty_le_roundMhz hhz).mpr hfast)
  rwa [BitVec.ofNat_toNat, BitVec.setWidth_eq] at hcase

theorem minimumLength_le {mhz : ℕ} (h : mhz ≤ 100) : minimumLength mhz ≤ 23200 :=
  (interpolate_mono limitTable_rising h).trans (by decide)

/-! ### Lengths -/

/-- The bytes of all the repetitions. -/
def Wave.bytes (wv : Wave) : ℕ := wv.recurr.toNat * wv.size.toNat

/-- The product that the driver computes decides as the number of points does: it does not wrap, or
what is left of it is enough, and the odd byte of an odd size makes no difference. -/
def ProductFits (minimum : ℕ) (wv : Wave) : Prop :=
  (wv.bytes < 2 ^ 32 ∨ 2 * minimum ≤ wv.bytes % 2 ^ 32) ∧
    (minimum ≤ wv.played ∨ wv.bytes / 2 < minimum)

theorem played_bounds (wv : Wave) :
    2 * wv.played ≤ wv.bytes ∧ wv.bytes ≤ 2 * wv.played + wv.recurr.toNat := by
  have hsize := Nat.div_add_mod wv.size.toNat 2
  have hodd := Nat.mod_lt wv.size.toNat (Nat.zero_lt_succ 1)
  unfold Wave.played Wave.bytes
  rw [wv.form_length]
  constructor
  · calc 2 * (wv.recurr.toNat * (wv.size.toNat / 2)) =
          wv.recurr.toNat * (2 * (wv.size.toNat / 2)) := by ring
      _ ≤ wv.recurr.toNat * wv.size.toNat := Nat.mul_le_mul_left _ (by omega)
  · calc wv.recurr.toNat * wv.size.toNat ≤ wv.recurr.toNat * (2 * (wv.size.toNat / 2) + 1) :=
          Nat.mul_le_mul_left _ (by omega)
      _ = 2 * (wv.recurr.toNat * (wv.size.toNat / 2)) + wv.recurr.toNat := by ring

theorem played_of_wrap {wv : Wave} (h : 2 ^ 32 ≤ wv.bytes) : 23200 ≤ wv.played := by
  have hbounds := (played_bounds wv).2
  have hrecurr := wv.recurr.isLt
  have htwo : 2 * wv.recurr.toNat ≤ wv.bytes := by
    have hsize : 2 ≤ wv.size.toNat := by
      by_contra hlt
      have hle : wv.bytes ≤ wv.recurr.toNat * 1 := Nat.mul_le_mul_left _ (by omega)
      omega
    calc 2 * wv.recurr.toNat = wv.recurr.toNat * 2 := Nat.mul_comm _ _
      _ ≤ wv.bytes := Nat.mul_le_mul_left _ hsize
  omega

theorem length_toNat (wv : Wave) :
    (wv.recurr * wv.size / 2).toNat = wv.bytes % 2 ^ 32 / 2 := by
  rw [BitVec.toNat_udiv, BitVec.toNat_mul]
  rfl

theorem productFits_iff {minimum : ℕ} (hmin : minimum ≤ 23200) (wv : Wave) :
    (minimum ≤ wv.bytes % 2 ^ 32 / 2 ↔ minimum ≤ wv.played) ↔ ProductFits minimum wv := by
  have hbounds := played_bounds wv
  unfold ProductFits
  by_cases hwrap : wv.bytes < 2 ^ 32
  · rw [Nat.mod_eq_of_lt hwrap]
    constructor
    · intro h
      exact ⟨.inl hwrap, by omega⟩
    · rintro ⟨-, h⟩
      omega
  · have hplayed := played_of_wrap (Nat.le_of_not_lt hwrap)
    have henough : minimum ≤ wv.played := hmin.trans hplayed
    constructor
    · intro h
      have hleft := h.mpr henough
      exact ⟨.inr (by omega), .inl henough⟩
    · rintro ⟨hleft | hleft, -⟩
      · exact absurd hleft hwrap
      · exact ⟨fun _ => henough, fun _ => by omega⟩

/-! ### The check -/

section Check

variable {hz : U32} {seq : Seq} {wv : Wave}

theorem invalidFreqlimit_eq (hhz : hz ≤ 100002000) (hseq : seq.nr = 0 ∨ 2 < seq.waves.length)
    (hrecurr : wv.recurr ≠ 0) : invalidFreqlimit seq wv hz = false ↔
      (wvMinimum (roundMhz hz)).toNat ≤ wv.bytes % 2 ^ 32 / 2 := by
  have hnot : ¬ (100002000 : U32) < hz := Nat.not_lt.mpr hhz
  have hseq' : (decide (seq.nr = 0) || decide (2 < seq.waves.length)) = true := by simpa using hseq
  unfold invalidFreqlimit
  rw [freqlimitCheck_eq, if_neg hnot, hseq', Bool.true_and, decide_eq_true hrecurr, Bool.true_and,
    decide_eq_false_iff_not, ← length_toNat]
  exact Nat.not_lt

/-- **The minimum length**: at the sampling frequencies that are allowed, the check of a waveform
that must be checked is right exactly above 79 MHz, if its product fits. -/
theorem limitMet_iff (hhz : hz ≤ 100002000) (hseq : seq.nr = 0 ∨ 2 < seq.waves.length)
    (hrecurr : wv.recurr ≠ 0) : LimitMet hz seq wv ↔
      79000000 < hz.toNat ∧ ProductFits (minimumLength (roundMhz hz).toNat) wv := by
  have hmin := minimumLength_le (roundMhz_le hhz)
  constructor
  · intro h
    have haccepts := h.accepts
    rw [invalidFreqlimit_eq hhz hseq hrecurr, h.interpolated] at haccepts
    exact ⟨(noUnderflow_iff hhz).mp h.noUnderflow, (productFits_iff hmin wv).mp haccepts⟩
  · rintro ⟨hfast, hfits⟩
    have heq := wvMinimum_eq hhz hfast
    refine ⟨(noUnderflow_iff hhz).mpr hfast, fun p hp hmhz => ?_, fun hz' hle hhz' => ?_, heq, ?_⟩
    · have hentry : minimumLength p.1.toNat = p.2.toNat :=
        interpolate_entry limitTable_rising (List.mem_map_of_mem hp)
      rw [← hmhz, ← heq] at hentry
      exact BitVec.eq_of_toNat_eq hentry
    · have hfast' : 79000000 < hz'.toNat := hfast.trans_le hle
      show (wvMinimum (roundMhz hz)).toNat ≤ (wvMinimum (roundMhz hz')).toNat
      rw [heq, wvMinimum_eq hhz' hfast']
      exact interpolate_mono limitTable_rising (roundMhz_mono hle hhz')
    · rw [invalidFreqlimit_eq hhz hseq hrecurr, heq]
      exact (productFits_iff hmin wv).mpr hfits

end Check

/-- A waveform of 12000 points that is played twice. -/
def longWave : Wave := ⟨2, 24000, 0, 0, List.replicate 12000 0, List.length_replicate⟩

theorem limitMet_fullSpeed : LimitMet 100000000 ⟨0, [longWave]⟩ longWave :=
  (limitMet_iff (by decide) (.inl rfl) (by decide)).mpr
    ⟨by decide, .inl (by decide), .inl (by decide +kernel)⟩

/-- A waveform of 16 points, as many as the table asks for at 1 MHz. -/
def shortWave : Wave := ⟨1, 32, 0, 0, List.replicate 16 0, List.length_replicate⟩

theorem limit_not_met : ¬ ∀ (hz : U32) (seq : Seq) (wv : Wave), hz ≤ 100002000 →
    (seq.nr = 0 ∨ 2 < seq.waves.length) → wv.recurr ≠ 0 → LimitMet hz seq wv := by
  intro h
  have hmet := h 1000000 ⟨0, [shortWave]⟩ shortWave (by decide) (.inl rfl) (by decide)
  have hentry := hmet.entry (1, 16) (by decide) (by decide)
  exact absurd hentry (by decide)

end KernelModules.Cvorg
