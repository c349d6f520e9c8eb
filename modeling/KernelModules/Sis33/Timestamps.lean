import Mathlib.Tactic

/-!
# Timestamps of the events of a SIS3302

The board gives the time of each event in 48 bits, as two words of which the upper one goes first.
The driver merges the words and makes the times relative to the first event, in place.

* `sis3302PtCacheFill` and `sis3302PtCacheNormalize` are the two loops;
* `timestamp` is what the board has counted;
* `prevticks_relative_iff` says when the cache has the times relative to the first event: the loop
  clears the entry that it goes on subtracting, so only when these are the times themselves.
-/

namespace KernelModules.Sis33

open Function

/-- `SIS3302_TSTAMP_UPPER_MASK`. -/
def tstampUpperMask : BitVec 32 := 0xffff

/-- `sis3302_pt_cache_fill`. -/
def sis3302PtCacheFill (ptCache : ℕ → BitVec 64) (raw : ℕ → BitVec 32) (n : ℕ) : ℕ → BitVec 64 :=
  (List.range n).foldl
    (fun ptCache i =>
      let upper : BitVec 64 := (raw (i * 2) &&& tstampUpperMask).setWidth 64
      let lower := raw (i * 2 + 1)
      update ptCache i (upper <<< 32 ||| lower.setWidth 64))
    ptCache

/-- `sis3302_pt_cache_normalize`. -/
def sis3302PtCacheNormalize (ptCache : ℕ → BitVec 64) (n : ℕ) : ℕ → BitVec 64 :=
  (List.range n).foldl (fun ptCache i => update ptCache i (ptCache i - ptCache 0)) ptCache

/-- The cache that `sis3320_read_prevticks` allocates and fills. -/
def prevticks (raw : ℕ → BitVec 32) (n : ℕ) : ℕ → BitVec 64 :=
  sis3302PtCacheNormalize (sis3302PtCacheFill (fun _ => 0) raw n) n

/-- The time of event `i`. -/
def timestamp (raw : ℕ → BitVec 32) (i : ℕ) : BitVec 48 :=
  (raw (i * 2)).setWidth 16 ++ raw (i * 2 + 1)

/-- The cache has the times relative to that of the first event, and the same differences. -/
def Relative (raw : ℕ → BitVec 32) (n : ℕ) : Prop :=
  (∀ i < n, prevticks raw n i =
    (timestamp raw i).setWidth 64 - (timestamp raw 0).setWidth 64) ∧
  ∀ i, i + 1 < n → prevticks raw n (i + 1) - prevticks raw n i =
    (timestamp raw (i + 1)).setWidth 64 - (timestamp raw i).setWidth 64

/-! ### The two loops -/

theorem merge_eq_timestamp (raw : ℕ → BitVec 32) (i : ℕ) :
    ((raw (i * 2) &&& tstampUpperMask).setWidth 64 <<< 32 ||| (raw (i * 2 + 1)).setWidth 64 :
      BitVec 64) = (timestamp raw i).setWidth 64 := by
  apply BitVec.eq_of_getLsbD_eq
  intro j hj
  have hmask : ∀ k, tstampUpperMask.getLsbD k = decide (k < 16) := by
    intro k
    by_cases hk : k < 32
    · interval_cases k <;> rfl
    · rw [BitVec.getLsbD_of_ge _ _ (not_lt.1 hk), decide_eq_false (by omega)]
  unfold timestamp
  simp only [BitVec.getLsbD_or, BitVec.getLsbD_shiftLeft, BitVec.getLsbD_setWidth,
    BitVec.getLsbD_and, BitVec.getLsbD_append, hmask, hj, decide_true, Bool.true_and]
  by_cases hlow : j < 32
  · simp only [hlow, decide_true, Bool.not_true, Bool.false_and, Bool.false_or, if_true]
  · have hupper : j - 32 < 64 := by omega
    have hlast : (raw (i * 2 + 1)).getLsbD j = false :=
      BitVec.getLsbD_of_ge _ _ (not_lt.1 hlow)
    simp only [hlow, hupper, hlast, decide_false, decide_true, Bool.not_false, Bool.true_and,
      Bool.or_false, if_false]
    exact Bool.and_comm _ _

theorem sis3302PtCacheFill_eq (ptCache : ℕ → BitVec 64) (raw : ℕ → BitVec 32) (n i : ℕ) :
    sis3302PtCacheFill ptCache raw n i =
      if i < n then (timestamp raw i).setWidth 64 else ptCache i := by
  induction n with
  | zero => rfl
  | succ n ih =>
    unfold sis3302PtCacheFill at ih ⊢
    rw [List.range_succ, List.foldl_append, List.foldl_cons, List.foldl_nil]
    by_cases heq : i = n
    · subst heq
      rw [update_self, merge_eq_timestamp, if_pos (Nat.lt_succ_self i)]
    · rw [update_of_ne heq, ih]
      by_cases hlt : i < n
      · rw [if_pos hlt, if_pos (Nat.lt_succ_of_lt hlt)]
      · rw [if_neg hlt, if_neg (by omega)]

theorem sis3302PtCacheNormalize_eq (ptCache : ℕ → BitVec 64) (n i : ℕ) :
    sis3302PtCacheNormalize ptCache (n + 1) i = if i = 0 then 0 else ptCache i := by
  induction n generalizing i with
  | zero =>
    show update ptCache 0 (ptCache 0 - ptCache 0) i = _
    by_cases heq : i = 0
    · rw [heq, update_self, if_pos rfl]
      exact BitVec.sub_self _
    · rw [update_of_ne heq, if_neg heq]
  | succ n ih =>
    unfold sis3302PtCacheNormalize at ih ⊢
    rw [List.range_succ, List.foldl_append, List.foldl_cons, List.foldl_nil]
    by_cases heq : i = n + 1
    · have hzero : (0 : BitVec 64) - 0 = 0 := rfl
      rw [heq, update_self, ih, ih, if_neg (Nat.succ_ne_zero n), if_pos rfl]
      exact BitVec.sub_zero _
    · rw [update_of_ne heq, ih]

theorem prevticks_eq (raw : ℕ → BitVec 32) {n i : ℕ} (h : i < n) :
    prevticks raw n i = if i = 0 then 0 else (timestamp raw i).setWidth 64 := by
  obtain ⟨m, rfl⟩ : ∃ m, n = m + 1 := ⟨n - 1, by omega⟩
  unfold prevticks
  rw [sis3302PtCacheNormalize_eq, sis3302PtCacheFill_eq, if_pos h]

/-! ### When the times are relative -/

/-- **Relative times.**  The cache has the times relative to the first event if and only if there is
no second event, or the first one has time 0. -/
theorem prevticks_relative_iff (raw : ℕ → BitVec 32) (n : ℕ) :
    Relative raw n ↔ n ≤ 1 ∨ timestamp raw 0 = 0 := by
  constructor
  · rintro ⟨hrel, -⟩
    by_contra hno
    rw [not_or, not_le] at hno
    have hone := hrel 1 hno.1
    rw [prevticks_eq raw hno.1, if_neg one_ne_zero] at hone
    have hnat := congrArg BitVec.toNat hone
    have hlt := (timestamp raw 0).isLt
    have hlt' := (timestamp raw 1).isLt
    rw [BitVec.toNat_sub, BitVec.toNat_setWidth, BitVec.toNat_setWidth] at hnat
    refine hno.2 (BitVec.eq_of_toNat_eq ?_)
    show (timestamp raw 0).toNat = 0
    omega
  · rintro (hn | hzero)
    · refine ⟨fun i hi => ?_, fun i hi => absurd hi (by omega)⟩
      obtain rfl : i = 0 := by omega
      rw [prevticks_eq raw hi, if_pos rfl, BitVec.sub_self]
      rfl
    · have hfirst : (timestamp raw 0).setWidth 64 = 0 := by
        rw [hzero]
        rfl
      have hall : ∀ i < n, prevticks raw n i = (timestamp raw i).setWidth 64 := by
        intro i hi
        rw [prevticks_eq raw hi]
        by_cases heq : i = 0
        · rw [if_pos heq, heq, hfirst]
        · rw [if_neg heq]
      refine ⟨fun i hi => ?_, fun i hi => ?_⟩
      · rw [hall i hi, hfirst]
        exact (BitVec.sub_zero _).symm
      · rw [hall _ hi, hall i (Nat.lt_of_succ_lt hi)]

/-- Two events, at times 5 and 7. -/
def twoEvents : ℕ → BitVec 32 := fun i => if i = 1 then 5 else if i = 3 then 7 else 0

/-- The second event seems to come 7 ticks after the first one. -/
theorem timestamps_broken : prevticks twoEvents 2 1 = 7 ∧ ¬ Relative twoEvents 2 := by
  have hsecond : prevticks twoEvents 2 1 = 7 := by
    rw [prevticks_eq twoEvents (by decide), if_neg one_ne_zero]
    decide
  refine ⟨hsecond, fun hrel => ?_⟩
  have hone := hrel.1 1 (by decide)
  rw [hsecond] at hone
  exact absurd hone (by decide)

end KernelModules.Sis33
