import Mathlib.Data.BitVec
import Mathlib.Tactic.Common

/-!
# The hardware formats of the timing receiver

Triggers and counter configurations exist twice: as the structures of the driver's interface and
packed into 32-bit words in the card's RAM.  This file has both forms and the packing.

* `autoShiftLeft` moves a value under a mask; `triggerToHard` and `configToHard` pack;
* `busBit` is the bit of a configuration word that lets its trigger interrupt the bus, and
  `configToHard_bus` says where a packed configuration takes it from.
-/

namespace KernelModules.Ctr

abbrev U32 := BitVec 32

/-- `CtrDrvrRamTableSIZE`. -/
def ramTableSize : ℕ := 2048

/-- `CtrDrvrInterruptSOURCES`: the counters 0 to 8 and five further sources. -/
def interruptSources : ℕ := 14

/-- `CtrDrvrCOUNTERS`. -/
def counters : ℕ := 9

/-- `CtrDrvrConnectionClass`; callers may pass values outside the enumeration. -/
inductive ConnectionClass
  | hard
  | ctim
  | ptim
  | other (v : U32)
  deriving DecidableEq, Repr

/-- `CtrDrvrTrigger`. -/
structure Trigger where
  ctim : U32
  frame : U32
  triggerCondition : U32
  machine : U32
  counter : U32
  groupNumber : BitVec 16
  groupValue : BitVec 16
  deriving DecidableEq, Repr

/-- `CtrDrvrCounterConfiguration`. -/
structure CounterConfiguration where
  onZero : U32
  start : U32
  mode : U32
  clock : U32
  pulsWidth : U32
  delay : U32
  deriving DecidableEq, Repr

/-- `CtrDrvrHwTrigger`. -/
structure HwTrigger where
  frame : U32
  trigger : U32
  deriving DecidableEq, Repr

/-- `CtrDrvrHwCounterConfiguration`. -/
structure HwCounterConfiguration where
  config : U32
  delay : U32
  deriving DecidableEq, Repr

/-- What `bzero` leaves. -/
def Trigger.zero : Trigger := ⟨0, 0, 0, 0, 0, 0, 0⟩

def CounterConfiguration.zero : CounterConfiguration := ⟨0, 0, 0, 0, 0, 0⟩

/-- `Header` of an event frame: the top byte of the word. -/
def frameHeader (frame : U32) : BitVec 8 := (frame >>> 24).setWidth 8

/-! ### Packing -/

/-- The loop of `AutoShiftLeft`: how far the mask is from bit 0.  The mask is a signed `int`
there, so the shift repeats the sign. -/
def shiftCount : ℕ → U32 → ℕ
  | 0, _ => 0
  | n + 1, m => if m &&& 1 ≠ 0 then 0 else shiftCount n (m.sshiftRight 1) + 1

/-- `AutoShiftLeft`. -/
def autoShiftLeft (mask value : U32) : U32 := (value <<< shiftCount 32 mask) &&& mask

def trigGroupValueMask : U32 := 0x0000FFFF
def trigGroupNumberMask : U32 := 0x007F0000
def trigCounterMask : U32 := 0x07800000
def trigMachineMask : U32 := 0x38000000
def trigConditionMask : U32 := 0xC0000000

/-- `TriggerToHard`. -/
def triggerToHard (strg : Trigger) : HwTrigger where
  frame := strg.frame
  trigger :=
    autoShiftLeft trigGroupValueMask (strg.groupValue.setWidth 32)
      ||| autoShiftLeft trigConditionMask strg.triggerCondition
      ||| autoShiftLeft trigMachineMask strg.machine
      ||| autoShiftLeft trigCounterMask strg.counter
      ||| autoShiftLeft trigGroupNumberMask (strg.groupNumber.setWidth 32)

def counterConfigPulseWidthMask : U32 := 0x003FFFFF
def counterConfigClockMask : U32 := 0x01C00000
def counterConfigModeMask : U32 := 0x06000000
def counterConfigStartMask : U32 := 0x38000000
def counterConfigOnZeroMask : U32 := 0xC0000000

/-- `ConfigToHard`. -/
def configToHard (scnf : CounterConfiguration) : HwCounterConfiguration where
  config :=
    autoShiftLeft counterConfigPulseWidthMask scnf.pulsWidth
      ||| autoShiftLeft counterConfigClockMask scnf.clock
      ||| autoShiftLeft counterConfigModeMask scnf.mode
      ||| autoShiftLeft counterConfigStartMask scnf.start
      ||| autoShiftLeft counterConfigOnZeroMask scnf.onZero
  delay := scnf.delay

/-- `CtrDrvrCounterOnZeroBUS`. -/
def onZeroBus : U32 := 0x01

/-- The bit of a configuration word that asks for a bus interrupt. -/
def busBit : U32 := autoShiftLeft counterConfigOnZeroMask onZeroBus

/-! ### The bus bit -/

theorem busBit_eq : busBit = BitVec.twoPow 32 30 := by decide

/-- The configuration word asks for a bus interrupt. -/
def HwCounterConfiguration.Bus (c : HwCounterConfiguration) : Prop := c.config &&& busBit ≠ 0

instance (c : HwCounterConfiguration) : Decidable c.Bus := inferInstanceAs (Decidable (_ ≠ _))

theorem HwCounterConfiguration.bus_iff (c : HwCounterConfiguration) :
    c.Bus ↔ c.config.getLsbD 30 = true := by
  rw [HwCounterConfiguration.Bus, busBit_eq, BitVec.and_twoPow]
  split
  · rename_i hbit
    simp only [hbit, iff_true]
    decide
  · rename_i hbit
    exact iff_of_false (fun h => h rfl) hbit

theorem getLsbD_autoShiftLeft_of_mask {mask : U32} {k : ℕ} (h : mask.getLsbD k = false)
    (value : U32) : (autoShiftLeft mask value).getLsbD k = false := by
  rw [autoShiftLeft, BitVec.getLsbD_and, h, Bool.and_false]

theorem configToHard_bus (scnf : CounterConfiguration) :
    (configToHard scnf).Bus ↔ scnf.onZero.getLsbD 0 = true := by
  have hshift : shiftCount 32 counterConfigOnZeroMask = 30 := by decide
  have hzero : (autoShiftLeft counterConfigOnZeroMask scnf.onZero).getLsbD 30
      = scnf.onZero.getLsbD 0 := by
    rw [autoShiftLeft, hshift, BitVec.getLsbD_and, BitVec.getLsbD_shiftLeft]
    simp [counterConfigOnZeroMask]
  -- every other field is cut to a mask without bit 30
  simp only [HwCounterConfiguration.bus_iff, configToHard, BitVec.getLsbD_or, hzero,
    getLsbD_autoShiftLeft_of_mask (show counterConfigPulseWidthMask.getLsbD 30 = false from rfl),
    getLsbD_autoShiftLeft_of_mask (show counterConfigClockMask.getLsbD 30 = false from rfl),
    getLsbD_autoShiftLeft_of_mask (show counterConfigModeMask.getLsbD 30 = false from rfl),
    getLsbD_autoShiftLeft_of_mask (show counterConfigStartMask.getLsbD 30 = false from rfl),
    Bool.false_or]

theorem bus_or_busBit {c c' : HwCounterConfiguration} (h : c'.config = c.config ||| busBit) :
    c'.Bus := by
  rw [HwCounterConfiguration.bus_iff, h, busBit_eq, BitVec.getLsbD_or, BitVec.getLsbD_twoPow]
  simp

theorem not_bus_and_not_busBit {c c' : HwCounterConfiguration}
    (h : c'.config = c.config &&& ~~~busBit) : ¬ c'.Bus := by
  rw [HwCounterConfiguration.bus_iff, h, busBit_eq, BitVec.getLsbD_and, BitVec.getLsbD_not,
    BitVec.getLsbD_twoPow]
  simp

end KernelModules.Ctr
