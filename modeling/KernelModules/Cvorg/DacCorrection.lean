import Mathlib.Tactic
import KernelModules.Cvorg.GainOffset

/-!
# The correction of the CVORG converter

The register `CVORG_DACCORR` of a channel has two fields: a gain of 16 bits, and an offset of 15 bits
in two's complement.

* `setDacGain`, `getDacGain`, `setDacOffset` and `getDacOffset` are the two accessors, `DacCall.run`
  is any sequence of calls that set a field;
* `lastGain` and `lastOffset` are the last values that were accepted;
* `ReadsLast` is what the accessors are for.  The sign of the offset is extended in a variable that
  is not used any more, so that it holds for offsets that are not negative (`readsLast_iff`).
-/

namespace KernelModules.Cvorg

open KernelModules.Lib KernelModules.Lib.Word

/-- `CVORG_DACCORR`. -/
def DACCORR : ℕ := 0x5c

def DACCORR_GAIN_MASK : U32 := 0xffff

def DACCORR_OFFSET_MASK : U32 := (0x7fff : U32) <<< 16

/-! ### The accessors -/

/-- `cvorg_chan_dac_gain`, setting. -/
def setDacGain (c : Channel) (val : U16) : Channel :=
  c.uchan DACCORR (val.setWidth 32 &&& DACCORR_GAIN_MASK) DACCORR_GAIN_MASK

/-- `cvorg_chan_dac_gain`, reading. -/
def getDacGain (c : Channel) : U16 := (c.regs DACCORR &&& DACCORR_GAIN_MASK).setWidth 16

/-- The offsets that are accepted. -/
def offsetInRange (offset : U16) : Bool :=
  !(offset.toInt < -(1 <<< 14) || offset.toInt > (1 <<< 14) - 1)

/-- `cvorg_chan_dac_offset`, setting an `int16_t`. -/
def setDacOffset (c : Channel) (offset : U16) : Except ChanError Unit × Channel :=
  if offsetInRange offset then
    (.ok (), c.uchan DACCORR ((offset.signExtend 32 &&& 0x7fff) <<< 16) DACCORR_OFFSET_MASK)
  else (.error .EINVAL, c)

/-- `cvorg_chan_dac_offset`, reading: the offset, and the local `regval` as it is left. -/
def getDacOffset (c : Channel) : U16 × U32 :=
  let regval := (c.regs DACCORR &&& DACCORR_OFFSET_MASK) >>> 16
  let val := regval.setWidth 16
  -- the sign is extended in `regval`, and `val` is returned
  (val, if val &&& 0x4000 ≠ 0 then regval ||| 0x8000 else regval)

/-! ### Sequences of calls -/

/-- A call that sets a field. -/
inductive DacCall
  | gain (val : U16)
  | offset (val : U16)
  deriving DecidableEq, Repr

namespace DacCall

/-- What a call does. -/
def step (c : Channel) : DacCall → Channel
  | gain val => setDacGain c val
  | offset val => (setDacOffset c val).2

/-- The calls one after the other. -/
def run (calls : List DacCall) (c : Channel) : Channel := calls.foldl step c

/-- The gain that a call sets. -/
def newGain : DacCall → Option U16
  | gain val => some val
  | offset _ => none

/-- The offset that a call sets, if it is accepted. -/
def newOffset : DacCall → Option U16
  | gain _ => none
  | offset val => if offsetInRange val then some val else none

end DacCall

/-- The gain that was set last. -/
def lastGain (calls : List DacCall) : Option U16 := (calls.filterMap DacCall.newGain).getLast?

/-- The offset that was accepted last. -/
def lastOffset (calls : List DacCall) : Option U16 := (calls.filterMap DacCall.newOffset).getLast?

/-- After some calls each field reads as it was set last, or as in the beginning, and another call
on one field leaves the reading of the other one. -/
structure ReadsLast (c : Channel) (calls : List DacCall) : Prop where
  gain : getDacGain (DacCall.run calls c) = (lastGain calls).getD (getDacGain c)
  offset : (getDacOffset (DacCall.run calls c)).1 = (lastOffset calls).getD (getDacOffset c).1
  keepsOffset : ∀ val, (getDacOffset (setDacGain (DacCall.run calls c) val)).1 =
    (getDacOffset (DacCall.run calls c)).1
  keepsGain : ∀ val, getDacGain (setDacOffset (DacCall.run calls c) val).2 =
    getDacGain (DacCall.run calls c)

/-! ### One call -/

section OneCall

variable (c : Channel) (val : U16)

theorem getDacGain_setDacGain : getDacGain (setDacGain c val) = val := by
  unfold getDacGain setDacGain
  rw [Channel.uchan_regs, Function.update_self,
    update_and_self (by rw [BitVec.and_assoc, BitVec.and_self])]
  apply BitVec.eq_of_getLsbD_eq
  intro i hi
  have hmask : DACCORR_GAIN_MASK.getLsbD i = true := by
    revert i
    decide
  simp [hmask, hi, show i < 32 by omega]

theorem offset_word_and_mask : (val.signExtend 32 &&& 0x7fff) <<< 16 &&& DACCORR_OFFSET_MASK =
    (val.signExtend 32 &&& 0x7fff) <<< 16 := by
  rw [DACCORR_OFFSET_MASK, ← BitVec.shiftLeft_and_distrib, BitVec.and_assoc, BitVec.and_self]

theorem masks_disjoint : DACCORR_GAIN_MASK &&& DACCORR_OFFSET_MASK = 0 := by decide

theorem getDacGain_setDacOffset : getDacGain (setDacOffset c val).2 = getDacGain c := by
  unfold setDacOffset
  split
  · unfold getDacGain
    rw [Channel.uchan_regs, Function.update_self, update_and_of_disjoint
      (by rw [BitVec.and_comm]; exact masks_disjoint) (offset_word_and_mask val)]
  · rfl

theorem getDacOffset_setDacGain :
    (getDacOffset (setDacGain c val)).1 = (getDacOffset c).1 := by
  unfold getDacOffset setDacGain
  dsimp only
  rw [Channel.uchan_regs, Function.update_self, update_and_of_disjoint masks_disjoint
    (by rw [BitVec.and_assoc, BitVec.and_self])]

theorem getDacOffset_setDacOffset (h : offsetInRange val = true) :
    (getDacOffset (setDacOffset c val).2).1 = val &&& 0x7fff := by
  unfold setDacOffset
  rw [if_pos h]
  unfold getDacOffset
  dsimp only
  rw [Channel.uchan_regs, Function.update_self, update_and_self (offset_word_and_mask val)]
  apply BitVec.eq_of_getLsbD_eq
  intro i hi
  have hmask : (0x7fff : U32).getLsbD i = (0x7fff : U16).getLsbD i := by
    revert i
    decide
  rw [BitVec.getLsbD_setWidth, BitVec.getLsbD_ushiftRight, BitVec.getLsbD_shiftLeft,
    BitVec.getLsbD_and, BitVec.getLsbD_and, BitVec.getLsbD_signExtend, Nat.add_sub_cancel_left,
    hmask]
  simp [hi, show 16 + i < 32 by omega, show i < 32 by omega]

theorem setDacOffset_refused (h : offsetInRange val = false) : (setDacOffset c val).2 = c := by
  unfold setDacOffset
  rw [h]
  rfl

theorem and_eq_self_iff : val &&& 0x7fff = val ↔ 0 ≤ val.toInt := by
  have hlow : (val &&& 0x7fff).toNat = val.toNat % 2 ^ 15 := toNat_and_low val 15 (by decide)
  have hlt := val.isLt
  rw [← BitVec.toNat_inj, hlow, BitVec.toInt_eq_toNat_cond]
  split <;> omega

end OneCall

/-! ### Any sequence -/

theorem DacCall.run_append (calls : List DacCall) (call : DacCall) (c : Channel) :
    run (calls ++ [call]) c = step (run calls c) call := by
  rw [run, List.foldl_append]
  rfl

theorem getDacGain_run (c : Channel) (calls : List DacCall) :
    getDacGain (DacCall.run calls c) = (lastGain calls).getD (getDacGain c) := by
  induction calls using List.reverseRecOn with
  | nil => rfl
  | append_singleton calls call ih =>
    rw [DacCall.run_append, lastGain, List.filterMap_append]
    cases call with
    | gain val =>
      rw [DacCall.step, getDacGain_setDacGain]
      simp [DacCall.newGain]
    | offset val =>
      rw [DacCall.step, getDacGain_setDacOffset, ih]
      simp [DacCall.newGain, lastGain]

theorem getDacOffset_run (c : Channel) (calls : List DacCall) :
    (getDacOffset (DacCall.run calls c)).1 =
      ((lastOffset calls).map (· &&& 0x7fff)).getD (getDacOffset c).1 := by
  induction calls using List.reverseRecOn with
  | nil => rfl
  | append_singleton calls call ih =>
    rw [DacCall.run_append, lastOffset, List.filterMap_append]
    cases call with
    | gain val =>
      rw [DacCall.step, getDacOffset_setDacGain, ih]
      simp [DacCall.newOffset, lastOffset]
    | offset val =>
      rw [DacCall.step]
      cases hrange : offsetInRange val with
      | false =>
        rw [setDacOffset_refused _ _ hrange, ih]
        simp [DacCall.newOffset, hrange, lastOffset]
      | true =>
        rw [getDacOffset_setDacOffset _ _ hrange]
        simp [DacCall.newOffset, hrange]

/-- **The fields of the correction** read as they were set last exactly when the last offset that
was accepted is not negative. -/
theorem readsLast_iff (c : Channel) (calls : List DacCall) :
    ReadsLast c calls ↔ ∀ val, lastOffset calls = some val → 0 ≤ val.toInt := by
  constructor
  · intro h val hlast
    have hread := h.offset
    rw [getDacOffset_run, hlast] at hread
    exact (and_eq_self_iff val).mp hread
  · intro h
    refine ⟨getDacGain_run c calls, ?_, fun val => getDacOffset_setDacGain _ val,
      fun val => getDacGain_setDacOffset _ val⟩
    rw [getDacOffset_run]
    cases hlast : lastOffset calls with
    | none => rfl
    | some val => exact (and_eq_self_iff val).mpr (h val hlast)

/-- An offset of -1 is read as 32767. -/
theorem negative_offset_not_read : ¬ ∀ (c : Channel) (calls : List DacCall), ReadsLast c calls := by
  intro h
  have hread := (h blankChannel [.offset (-1)]).offset
  exact absurd hread (by decide)

end KernelModules.Cvorg
