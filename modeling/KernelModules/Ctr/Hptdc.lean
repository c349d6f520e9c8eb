import Mathlib.Data.List.GetD
import Mathlib.Tactic
import KernelModules.Ctr.Sweeps
import KernelModules.Lib.Jtag

/-!
# The time to digital converter

The driver talks to the HPTDC of a card through the pins of its test access port: it toggles the
bits of one register and reads the output pin back.

* `hptdcBitTransfer`, `hptdcStateReset` and `hptdcCommand` are the functions of these names, over
  any port of `Lib.Jtag`;
* `commandPulses` and `dataPulses` are the pulses that a command sends, and `hptdcCommand_eq` says
  that it sends nothing else;
* `Executes` is what a command is for.

Without the parity flag `TMS` goes high at the last bit of every register, not only of the last one.
-/

namespace KernelModules.Ctr

open KernelModules.Lib

/-- `HptdcCmdBITS`. -/
def hptdcCmdBits : ℕ := 4

/-- `HptdcJTAG_TRST` and the other pins. -/
def jtagTrst : U32 := 0x01

def jtagTck : U32 := 0x02

def jtagTdi : U32 := 0x04

def jtagTdo : U32 := 0x08

def jtagTms : U32 := 0x10

/-- `HptdcRegisterVlaue`. -/
structure HptdcRegisterValue where
  value : U32
  endBit : BitVec 16
  startBit : BitVec 16
  deriving DecidableEq, Repr

/-- The number of bits of a register, as `HptdcCommand` computes it. -/
def HptdcRegisterValue.bits (r : HptdcRegisterValue) : U32 :=
  r.endBit.setWidth 32 - r.startBit.setWidth 32 + 1

section Functions

variable (dev : TapDevice)

/-- `HWr` to the register of the pins. -/
def jtagWrite (t : Tap) (jwd : U32) : Tap :=
  t.drive dev (jwd.getLsbD 0) (jwd.getLsbD 1) (jwd.getLsbD 2) (jwd.getLsbD 4)

/-- `HRd` of it. -/
def jtagRead (t : Tap) : U32 := if t.tdo then jtagTdo else 0

/-- `HptdcBitTransfer`. -/
def hptdcBitTransfer (t : Tap) (tdi tms : U32) : Bool × Tap :=
  let t := jtagWrite dev t (jtagTrst ||| tdi ||| tms)
  let t := jtagWrite dev t (jtagTrst ||| jtagTck ||| tdi ||| tms)
  let tdo := jtagRead t
  let t := jtagWrite dev t (jtagTrst ||| tdi ||| tms)
  (tdo &&& jtagTdo != 0, t)

/-- `HptdcStateReset`. -/
def hptdcStateReset (t : Tap) : Tap :=
  let t := jtagWrite dev t jtagTrst
  let t := jtagWrite dev t 0
  let t := jtagWrite dev t jtagTck
  let t := jtagWrite dev t (jtagTrst ||| jtagTck)
  let t := jtagWrite dev t jtagTrst
  (hptdcBitTransfer dev t 0 0).2

/-- The loop of `HptdcCommand` over the bits of the command, with the parity. -/
def commandLoop (cmd : U32) (t : Tap) : U32 × Tap :=
  (List.range hptdcCmdBits).foldl
    (fun (parity, t) i =>
      if 1#32 <<< i &&& cmd ≠ 0 then (parity + 1, (hptdcBitTransfer dev t jtagTdi 0).2)
      else (parity, (hptdcBitTransfer dev t 0 0).2))
    (0, t)

/-- One bit of a register: the value read back, the parity and the port. -/
def registerBit (pflg : Bool) (r : HptdcRegisterValue) (s : U32 × U32 × Tap) (i : ℕ) :
    U32 × U32 × Tap :=
  let (rval, parity, t) := s
  let msk := 1#32 <<< i
  let one := msk &&& r.value != 0
  let tms := if pflg = false ∧ BitVec.ofNat 32 i = r.bits - 1 then jtagTms else 0
  let (tdo, t) := hptdcBitTransfer dev t (if one then jtagTdi else 0) tms
  (if tdo then rval ||| msk else rval, if one then parity + 1 else parity, t)

/-- The loop over the bits of a register. -/
def registerLoop (pflg : Bool) (r : HptdcRegisterValue) (parity : U32) (t : Tap) :
    U32 × U32 × Tap :=
  (List.range r.bits.toNat).foldl (registerBit dev pflg r) (0, parity, t)

/-- The loop over the registers, with what it stores in `rreg`. -/
def registersLoop (pflg : Bool) :
    List HptdcRegisterValue → U32 → Tap → List HptdcRegisterValue × U32 × Tap
  | [], parity, t => ([], parity, t)
  | r :: wreg, parity, t =>
    let (rval, parity, t) := registerLoop dev pflg r parity t
    let (rreg, parity, t) := registersLoop pflg wreg parity t
    ({ r with value := rval } :: rreg, parity, t)

/-- `HptdcCommand`: what it leaves in `rreg`, and the port. -/
def hptdcCommand (t : Tap) (cmd : U32) (wreg : List HptdcRegisterValue) (pflg rflg : Bool) :
    List HptdcRegisterValue × Tap :=
  let t := if rflg then hptdcStateReset dev t else t
  let t := (hptdcBitTransfer dev t 0 jtagTms).2
  let t := (hptdcBitTransfer dev t 0 jtagTms).2
  let t := (hptdcBitTransfer dev t 0 0).2
  let t := (hptdcBitTransfer dev t 0 0).2
  let (parity, t) := commandLoop dev cmd t
  let t := (hptdcBitTransfer dev t (if parity &&& 1 ≠ 0 then jtagTdi else 0) jtagTms).2
  let t := (hptdcBitTransfer dev t 0 jtagTms).2
  let t := (hptdcBitTransfer dev t 0 jtagTms).2
  let t := (hptdcBitTransfer dev t 0 0).2
  let t := (hptdcBitTransfer dev t 0 0).2
  let (rreg, parity, t) := registersLoop dev pflg wreg 0 t
  let t :=
    if pflg then (hptdcBitTransfer dev t (if parity &&& 1 ≠ 0 then jtagTdi else 0) jtagTms).2 else t
  let t := (hptdcBitTransfer dev t 0 jtagTms).2
  let t := (hptdcBitTransfer dev t 0 0).2
  (rreg, t)

end Functions

/-! ### What a command is for -/

/-- The bits of a command, the lowest one first. -/
def commandBits (cmd : U32) : List Bool := (List.range hptdcCmdBits).map cmd.getLsbD

/-- The bits of a register. -/
def HptdcRegisterValue.field (r : HptdcRegisterValue) : List Bool :=
  (List.range r.bits.toNat).map r.value.getLsbD

/-- The parity of some bits. -/
def parityOf (bs : List Bool) : Bool := decide (bs.count true % 2 = 1)

/-- The bits of all registers. -/
def fields (wreg : List HptdcRegisterValue) : List Bool := wreg.flatMap HptdcRegisterValue.field

/-- The bits that are to be shifted into the data register. -/
def dataBits (wreg : List HptdcRegisterValue) (pflg : Bool) : List Bool :=
  fields wreg ++ if pflg then [parityOf (fields wreg)] else []

/-- The port after the reset sequence, if there is one. -/
def startPort (dev : TapDevice) (t : Tap) (rflg : Bool) : Tap :=
  if rflg then hptdcStateReset dev t else t

/-- The command goes into the instruction register with its parity, the fields go into the data
register in one scan, `rreg` gets what comes out at their places, and the port is idle again. -/
structure Executes (t : Tap) (cmd : U32) (wreg : List HptdcRegisterValue) (pflg : Bool)
    (irOut drOut : List Bool) (rreg : List HptdcRegisterValue) (t' : Tap) : Prop where
  events : t'.events = t.events ++ [.captureIr]
    ++ List.zipWith .shiftIr (commandBits cmd ++ [parityOf (commandBits cmd)]) irOut
    ++ [.updateIr, .captureDr]
    ++ List.zipWith .shiftDr (dataBits wreg pflg) drOut ++ [.updateDr]
  irLength : irOut.length = hptdcCmdBits + 1
  drLength : drOut.length = (dataBits wreg pflg).length
  bounds : rreg.map (fun r => (r.startBit, r.endBit)) = wreg.map (fun r => (r.startBit, r.endBit))
  values : fields rreg = drOut.take (fields wreg).length
  small : ∀ r ∈ rreg, r.value.toNat < 2 ^ r.bits.toNat
  idle : t'.state = .runTestIdle

/-- The registers that the driver can be asked for: one to 32 bits wide. -/
def WellSized (wreg : List HptdcRegisterValue) : Prop :=
  ∀ r ∈ wreg, 1 ≤ r.bits.toNat ∧ r.bits.toNat ≤ 32

/-! ### A bit -/

/-- The words of the pins. -/
def tdiWord (b : Bool) : U32 := if b then jtagTdi else 0

def tmsWord (b : Bool) : U32 := if b then jtagTms else 0

section Pulses

variable (dev : TapDevice) {t : Tap}

theorem jtagWrite_low (tdi tms : Bool) :
    jtagWrite dev t (jtagTrst ||| tdiWord tdi ||| tmsWord tms) =
      t.drive dev true false tdi tms := by
  cases tdi <;> cases tms <;> rfl

theorem jtagWrite_high (tdi tms : Bool) :
    jtagWrite dev t (jtagTrst ||| jtagTck ||| tdiWord tdi ||| tmsWord tms) =
      t.drive dev true true tdi tms := by
  cases tdi <;> cases tms <;> rfl

theorem hptdcBitTransfer_eq (h : t.tck = false) (tdi tms : Bool) :
    hptdcBitTransfer dev t (tdiWord tdi) (tmsWord tms) = (t.tdo, t.clock dev tdi tms) := by
  have hfirst : t.drive dev true false tdi tms = t := by simp [Tap.drive, h]
  have hrise : t.drive dev true true tdi tms = t.rise dev tdi tms := by simp [Tap.drive, h]
  have hfall : (t.rise dev tdi tms).drive dev true false tdi tms = t.clock dev tdi tms := by
    simp [Tap.drive, Tap.rise_tck, Tap.clock]
  have hread : (jtagRead (t.rise dev tdi tms) &&& jtagTdo != 0) = t.tdo := by
    rw [jtagRead, Tap.rise_tdo]
    cases t.tdo <;> rfl
  simp only [hptdcBitTransfer, jtagWrite_low, jtagWrite_high, hfirst, hrise, hfall, hread]

theorem hptdcStateReset_idle (t : Tap) :
    (hptdcStateReset dev t).state = .runTestIdle ∧ (hptdcStateReset dev t).Ready := by
  have hreset : hptdcStateReset dev t =
      ({ jtagWrite dev t jtagTrst with tck := false, state := .testLogicReset } : Tap).clock dev
        false false := by
    show (hptdcBitTransfer dev
      ({ jtagWrite dev t jtagTrst with tck := false, state := .testLogicReset } : Tap)
      (tdiWord false) (tmsWord false)).2 = _
    rw [hptdcBitTransfer_eq dev rfl]
  rw [hreset]
  exact ⟨Tap.clock_state, Tap.clock_ready⟩

theorem hptdcBitTransfer_idle (h : t.state = .runTestIdle) (tdi tms : Bool) :
    hptdcBitTransfer dev t (tdiWord tdi) (tmsWord tms) =
      hptdcBitTransfer dev { t with tck := false } (tdiWord tdi) (tmsWord tms) := by
  have hfall : t.drive dev true false tdi tms = { t with tck := false } := by
    cases htck : t.tck with
    | true => simp [Tap.drive, Tap.fall, h, htck]
    | false =>
      obtain ⟨tck, state, register, tdo, events⟩ := t
      cases htck
      rfl
  have hkeep : ({ t with tck := false } : Tap).drive dev true false tdi tms =
      { t with tck := false } := rfl
  simp only [hptdcBitTransfer, jtagWrite_low, hfall, hkeep]

/-! ### The bits of a command and of a register -/

theorem parity_word (bs : List Bool) :
    (if BitVec.ofNat 32 (bs.count true) &&& 1 ≠ 0 then jtagTdi else 0) = tdiWord (parityOf bs) := by
  have hbit := and_bit_ne_zero (by decide : 0 < 32) (BitVec.ofNat 32 (bs.count true))
  rw [BitVec.getLsbD_ofNat, Nat.testBit_zero, show 1#32 <<< 0 = (1 : U32) from rfl] at hbit
  unfold tdiWord parityOf
  by_cases h : bs.count true % 2 = 1
  · rw [if_pos (hbit.mpr (by simp [h])), if_pos (decide_eq_true h)]
  · rw [if_neg (fun hne => h (by simpa using hbit.mp hne)), if_neg (by simpa using h)]

theorem transfers_eq (h : t.tck = false) (w : U32) {n : ℕ} (hn : n ≤ 32) :
    (List.range n).foldl
        (fun (parity, t) i =>
          if 1#32 <<< i &&& w ≠ 0 then (parity + 1, (hptdcBitTransfer dev t jtagTdi 0).2)
          else (parity, (hptdcBitTransfer dev t 0 0).2))
        ((0 : U32), t) =
      (BitVec.ofNat 32 (((List.range n).map w.getLsbD).count true),
        t.clocks dev (((List.range n).map w.getLsbD).map (·, false))) := by
  induction n with
  | zero => rfl
  | succ n ih =>
    have hbit : (1#32 <<< n &&& w ≠ 0) = (w.getLsbD n = true) := by
      rw [BitVec.and_comm]
      exact propext (and_bit_ne_zero (by omega) w)
    have htck : (t.clocks dev (((List.range n).map w.getLsbD).map (·, false))).tck = false :=
      Tap.clocks_tck h _
    rw [List.range_succ, List.foldl_append, ih (by omega), List.map_append, List.map_append,
      List.count_append, Tap.clocks_append]
    simp only [List.foldl_cons, List.foldl_nil, hbit]
    cases hb : w.getLsbD n with
    | true =>
      have hone := hptdcBitTransfer_eq dev htck true false
      rw [if_pos rfl, show jtagTdi = tdiWord true from rfl, show (0 : U32) = tmsWord false from rfl,
        hone]
      simp [Tap.clocks, hb, BitVec.ofNat_add]
    | false =>
      have hzero := hptdcBitTransfer_eq dev htck false false
      rw [if_neg Bool.false_ne_true, show hptdcBitTransfer dev _ 0 0 = _ from hzero]
      simp [Tap.clocks, hb]

/-- The pulses of a register. -/
def registerPulses (pflg : Bool) (r : HptdcRegisterValue) : List (Bool × Bool) :=
  (List.range r.bits.toNat).map fun i => (r.value.getLsbD i, !pflg && i + 1 == r.bits.toNat)

theorem getLsbD_orBit {n : ℕ} (hn : n < 32) (w : U32) (b : Bool) (i : ℕ) :
    (if b then w ||| 1#32 <<< n else w).getLsbD i = (w.getLsbD i || (b && decide (i = n))) := by
  cases b with
  | false => rw [if_neg Bool.false_ne_true, Bool.false_and, Bool.or_false]
  | true =>
    rw [if_pos rfl, BitVec.getLsbD_or, Bool.true_and,
      Bool.eq_iff_iff.mpr ((getLsbD_bit hn i).trans decide_eq_true_iff.symm)]

theorem getD_snoc {bs : List Bool} {n : ℕ} (hlen : bs.length = n) (b : Bool) (i : ℕ) :
    (bs ++ [b]).getD i false = (bs.getD i false || (b && decide (i = n))) := by
  subst hlen
  obtain hlt | rfl | hgt := Nat.lt_trichotomy i bs.length
  · rw [List.getD_append _ _ _ _ hlt, decide_eq_false (Nat.ne_of_lt hlt), Bool.and_false,
      Bool.or_false]
  · simp
  · rw [List.getD_eq_default _ _ (by simpa using hgt), List.getD_eq_default _ _ (Nat.le_of_lt hgt),
      decide_eq_false (Nat.ne_of_gt hgt), Bool.and_false, Bool.or_false]

theorem registerBits_eq (pflg : Bool) (r : HptdcRegisterValue) (k : ℕ) (h : t.tck = false)
    (hbits : r.bits.toNat ≤ 32) {n : ℕ} (hn : n ≤ r.bits.toNat) :
    ∃ rval, (List.range n).foldl (registerBit dev pflg r) (0, BitVec.ofNat 32 k, t) =
        (rval, BitVec.ofNat 32 (k + ((List.range n).map r.value.getLsbD).count true),
          t.clocks dev ((registerPulses pflg r).take n)) ∧
      ∀ i, rval.getLsbD i = (t.tdos dev ((registerPulses pflg r).take n)).getD i false := by
  induction n with
  | zero => exact ⟨0, rfl, fun i => by simp [Tap.tdos]⟩
  | succ n ih =>
    obtain ⟨rval, hfold, hval⟩ := ih (by omega)
    have htck : (t.clocks dev ((registerPulses pflg r).take n)).tck = false := Tap.clocks_tck h _
    have htake : (registerPulses pflg r).take (n + 1) = (registerPulses pflg r).take n ++
        [(r.value.getLsbD n, !pflg && n + 1 == r.bits.toNat)] := by
      have hget : (registerPulses pflg r)[n]? =
          some (r.value.getLsbD n, !pflg && n + 1 == r.bits.toNat) := by
        rw [registerPulses, List.getElem?_map, List.getElem?_range (by omega)]
        rfl
      rw [List.take_add_one, hget]
      rfl
    have hone : (1#32 <<< n &&& r.value != 0) = r.value.getLsbD n := by
      rw [BitVec.and_comm, Bool.eq_iff_iff, bne_iff_ne]
      exact and_bit_ne_zero (by omega) _
    have htms : (if pflg = false ∧ BitVec.ofNat 32 n = r.bits - 1 then jtagTms else 0) =
        tmsWord (!pflg && n + 1 == r.bits.toNat) := by
      have hlast : BitVec.ofNat 32 n = r.bits - 1#32 ↔ n + 1 = r.bits.toNat := by
        constructor <;> intro heq <;> bv_omega
      cases pflg <;> simp [tmsWord, hlast]
    have hlen : (t.tdos dev ((registerPulses pflg r).take n)).length = n := by
      rw [Tap.length_tdos, List.length_take, registerPulses, List.length_map, List.length_range]
      omega
    have hbit := hptdcBitTransfer_eq dev htck (r.value.getLsbD n) (!pflg && n + 1 == r.bits.toNat)
    refine ⟨if (t.clocks dev ((registerPulses pflg r).take n)).tdo then rval ||| 1#32 <<< n
      else rval, ?_, fun i => ?_⟩
    · rw [List.range_succ, List.foldl_append, hfold, htake, Tap.clocks_append]
      simp only [List.foldl_cons, List.foldl_nil, registerBit, hone, htms,
        show ∀ b, (if b = true then jtagTdi else 0) = tdiWord b from fun _ => rfl, hbit]
      cases hb : r.value.getLsbD n <;>
        simp [Tap.clocks, BitVec.ofNat_add, BitVec.add_assoc, hb]
    · rw [htake, Tap.tdos_append, getLsbD_orBit (by omega), hval i]
      exact (getD_snoc hlen _ i).symm

@[simp] theorem length_registerPulses (pflg : Bool) (r : HptdcRegisterValue) :
    (registerPulses pflg r).length = r.bits.toNat := by
  rw [registerPulses, List.length_map, List.length_range]

theorem registerLoop_eq (pflg : Bool) (r : HptdcRegisterValue) (k : ℕ) (h : t.tck = false)
    (hbits : r.bits.toNat ≤ 32) :
    ∃ rval, registerLoop dev pflg r (BitVec.ofNat 32 k) t =
        (rval, BitVec.ofNat 32 (k + r.field.count true), t.clocks dev (registerPulses pflg r)) ∧
      ({ r with value := rval } : HptdcRegisterValue).field = t.tdos dev (registerPulses pflg r) ∧
      rval.toNat < 2 ^ r.bits.toNat := by
  obtain ⟨rval, hfold, hval⟩ := registerBits_eq dev pflg r k h hbits (Nat.le_refl _)
  have hall : (registerPulses pflg r).take r.bits.toNat = registerPulses pflg r :=
    List.take_of_length_le (Nat.le_of_eq (length_registerPulses pflg r))
  rw [hall] at hfold hval
  refine ⟨rval, hfold, ?_, ?_⟩
  · refine List.ext_getElem (by simp [HptdcRegisterValue.field, HptdcRegisterValue.bits]) ?_
    intro i hi hi'
    have hget := hval i
    rw [List.getD_eq_getElem _ _ hi'] at hget
    simpa [HptdcRegisterValue.field] using hget
  · refine Nat.lt_pow_two_of_testBit _ fun i hi => ?_
    rw [BitVec.testBit_toNat, hval i, List.getD_eq_default]
    rwa [Tap.length_tdos, length_registerPulses]

theorem registersLoop_eq (pflg : Bool) (wreg : List HptdcRegisterValue) (k : ℕ)
    (h : t.tck = false) (hsize : WellSized wreg) :
    ∃ rreg, registersLoop dev pflg wreg (BitVec.ofNat 32 k) t =
        (rreg, BitVec.ofNat 32 (k + (fields wreg).count true),
          t.clocks dev (wreg.flatMap (registerPulses pflg))) ∧
      fields rreg = t.tdos dev (wreg.flatMap (registerPulses pflg)) ∧
      rreg.map (fun r => (r.startBit, r.endBit)) = wreg.map (fun r => (r.startBit, r.endBit)) ∧
      ∀ r ∈ rreg, r.value.toNat < 2 ^ r.bits.toNat := by
  induction wreg generalizing t k with
  | nil => exact ⟨[], rfl, rfl, rfl, fun r hr => by cases hr⟩
  | cons r wreg ih =>
    obtain ⟨rval, hloop, hfield, hlt⟩ :=
      registerLoop_eq dev pflg r k h (hsize r (List.mem_cons_self)).2
    obtain ⟨rreg, hloops, hfields, hbounds, hsmall⟩ :=
      ih (k + r.field.count true) (t := t.clocks dev (registerPulses pflg r)) (Tap.clocks_tck h _)
        fun r' hr' => hsize r' (List.mem_cons_of_mem _ hr')
    refine ⟨{ r with value := rval } :: rreg, ?_, ?_, ?_, ?_⟩
    · simp only [registersLoop, hloop, hloops, fields, List.flatMap_cons, List.count_append,
        Tap.clocks_append, Nat.add_assoc]
    · simp only [fields, List.flatMap_cons] at hfields ⊢
      rw [hfield, hfields, Tap.tdos_append]
    · rw [List.map_cons, List.map_cons, hbounds]
    · intro r' hr'
      obtain rfl | hr' := List.mem_cons.mp hr'
      · exact hlt
      · exact hsmall r' hr'

/-- The pulses to the instruction register from the idle state, and to the data register from
there. -/
def scanPulses : List (Bool × Bool) := [(false, true), (false, true), (false, false), (false, false)]

/-- The pulses of a command before the data. -/
def commandPulses (cmd : U32) : List (Bool × Bool) :=
  scanPulses ++ (commandBits cmd).map (·, false) ++ [(parityOf (commandBits cmd), true)]
    ++ scanPulses

/-- The pulses of the registers. -/
def dataPulses (wreg : List HptdcRegisterValue) (pflg : Bool) : List (Bool × Bool) :=
  wreg.flatMap (registerPulses pflg)

/-- The pulses behind the registers. -/
def finalPulses (wreg : List HptdcRegisterValue) (pflg : Bool) : List (Bool × Bool) :=
  (if pflg then [(parityOf (fields wreg), true)] else []) ++ [(false, true), (false, false)]

theorem transfer_last (h : t.tck = false) (b : Bool) :
    (hptdcBitTransfer dev t (tdiWord b) jtagTms).2 = t.clocks dev [(b, true)] := by
  rw [show jtagTms = tmsWord true from rfl, hptdcBitTransfer_eq dev h]
  rfl

theorem transfer_idle (h : t.tck = false) :
    (hptdcBitTransfer dev t 0 0).2 = t.clocks dev [(false, false)] :=
  congrArg Prod.snd (hptdcBitTransfer_eq dev h false false)

theorem transfers_scan (h : t.tck = false) :
    (hptdcBitTransfer dev (hptdcBitTransfer dev (hptdcBitTransfer dev
      (hptdcBitTransfer dev t 0 jtagTms).2 0 jtagTms).2 0 0).2 0 0).2 = t.clocks dev scanPulses := by
  rw [show (hptdcBitTransfer dev t 0 jtagTms).2 = _ from transfer_last dev h false,
    show (hptdcBitTransfer dev _ 0 jtagTms).2 = _ from
      transfer_last dev (Tap.clocks_tck h _) false,
    transfer_idle dev (Tap.clocks_tck (Tap.clocks_tck h _) _),
    transfer_idle dev (Tap.clocks_tck (Tap.clocks_tck (Tap.clocks_tck h _) _) _)]
  rfl

theorem transfers_command (h : t.tck = false) (cmd : U32) :
    (hptdcBitTransfer dev (hptdcBitTransfer dev (hptdcBitTransfer dev (hptdcBitTransfer dev
      (hptdcBitTransfer dev (commandLoop dev cmd (t.clocks dev scanPulses)).2
        (if (commandLoop dev cmd (t.clocks dev scanPulses)).1 &&& 1 ≠ 0 then jtagTdi else 0)
        jtagTms).2 0 jtagTms).2 0 jtagTms).2 0 0).2 0 0).2 = t.clocks dev (commandPulses cmd) := by
  have hscan : (t.clocks dev scanPulses).tck = false := Tap.clocks_tck h _
  have hbits : ((t.clocks dev scanPulses).clocks dev ((commandBits cmd).map (·, false))).tck = false :=
    Tap.clocks_tck hscan _
  have hloop : commandLoop dev cmd (t.clocks dev scanPulses) =
      (BitVec.ofNat 32 ((commandBits cmd).count true),
        (t.clocks dev scanPulses).clocks dev ((commandBits cmd).map (·, false))) :=
    transfers_eq dev hscan cmd (n := hptdcCmdBits) (by decide)
  rw [hloop, parity_word, transfer_last dev hbits, transfers_scan dev (Tap.clocks_tck hbits _),
    ← Tap.clocks_append, ← Tap.clocks_append, ← Tap.clocks_append]
  rfl

theorem transfers_final (h : t.tck = false) (wreg : List HptdcRegisterValue) (pflg : Bool) :
    (hptdcBitTransfer dev (hptdcBitTransfer dev
      (if pflg then (hptdcBitTransfer dev t (if BitVec.ofNat 32 ((fields wreg).count true) &&& 1 ≠ 0
        then jtagTdi else 0) jtagTms).2 else t) 0 jtagTms).2 0 0).2 =
      t.clocks dev (finalPulses wreg pflg) := by
  have hlast : ∀ t : Tap, t.tck = false →
      (hptdcBitTransfer dev (hptdcBitTransfer dev t 0 jtagTms).2 0 0).2 =
        t.clocks dev [(false, true), (false, false)] := fun t ht => by
    rw [show (hptdcBitTransfer dev t 0 jtagTms).2 = _ from transfer_last dev ht false,
      transfer_idle dev (Tap.clocks_tck ht _)]
    rfl
  cases pflg with
  | true =>
    rw [if_pos rfl, parity_word, transfer_last dev h, hlast _ (Tap.clocks_tck h _)]
    rfl
  | false => exact hlast t h

theorem hptdcCommand_eq (t : Tap) (cmd : U32) (wreg : List HptdcRegisterValue) (pflg rflg : Bool)
    (hidle : (startPort dev t rflg).state = .runTestIdle) (hsize : WellSized wreg) :
    ∃ rreg, hptdcCommand dev t cmd wreg pflg rflg =
        (rreg, ({ startPort dev t rflg with tck := false } : Tap).clocks dev
          (commandPulses cmd ++ dataPulses wreg pflg ++ finalPulses wreg pflg)) ∧
      fields rreg = (({ startPort dev t rflg with tck := false } : Tap).clocks dev
        (commandPulses cmd)).tdos dev (dataPulses wreg pflg) ∧
      rreg.map (fun r => (r.startBit, r.endBit)) = wreg.map (fun r => (r.startBit, r.endBit)) ∧
      ∀ r ∈ rreg, r.value.toNat < 2 ^ r.bits.toNat := by
  have hfirst : (hptdcBitTransfer dev (startPort dev t rflg) 0 jtagTms).2 =
      (hptdcBitTransfer dev ({ startPort dev t rflg with tck := false } : Tap) 0 jtagTms).2 :=
    congrArg Prod.snd (hptdcBitTransfer_idle dev hidle false true)
  generalize hs : ({ startPort dev t rflg with tck := false } : Tap) = s at hfirst ⊢
  have hlow : s.tck = false := by rw [← hs]
  have hclocks : ∀ ps, (s.clocks dev ps).tck = false := Tap.clocks_tck hlow
  obtain ⟨rreg, hregs, hfields, hbounds, hsmall⟩ :=
    registersLoop_eq dev pflg wreg 0 (hclocks (commandPulses cmd)) hsize
  refine ⟨rreg, ?_, hfields, hbounds, hsmall⟩
  have hdata : registersLoop dev pflg wreg 0 (s.clocks dev (commandPulses cmd)) =
      (rreg, BitVec.ofNat 32 ((fields wreg).count true),
        (s.clocks dev (commandPulses cmd)).clocks dev (dataPulses wreg pflg)) := by
    rw [Nat.zero_add] at hregs
    exact hregs
  simp only [startPort] at hfirst
  unfold hptdcCommand
  simp only [hfirst, transfers_scan dev hlow, transfers_command dev hlow, hdata]
  rw [← Tap.clocks_append, transfers_final dev (hclocks _), ← Tap.clocks_append]

/-! ### The way of a command through the port -/

theorem commandPulses_eq (h : t.Ready) (hidle : t.state = .runTestIdle) (cmd : U32) :
    ∃ irOut : List Bool, irOut.length = hptdcCmdBits + 1 ∧
      (t.clocks dev (commandPulses cmd)).state = .shiftDr ∧
      (t.clocks dev (commandPulses cmd)).events = t.events ++ [.captureIr]
        ++ List.zipWith .shiftIr (commandBits cmd ++ [parityOf (commandBits cmd)]) irOut
        ++ [.updateIr, .captureDr] := by
  have hscan : (t.clocks dev scanPulses).state = .shiftIr ∧
      (t.clocks dev scanPulses).events = t.events ++ [.captureIr] := by
    refine ⟨by rw [Tap.clocks_state, hidle]; rfl, ?_⟩
    rw [Tap.clocks_events h, hidle]
    rfl
  have hready := Tap.clocks_ready dev h scanPulses
  obtain ⟨hexit, hir⟩ := Tap.clocks_shiftIr dev hready hscan.1 (commandBits cmd)
    (parityOf (commandBits cmd))
  have hsplit : t.clocks dev (commandPulses cmd) = ((t.clocks dev scanPulses).clocks dev
      ((commandBits cmd).map (·, false) ++ [(parityOf (commandBits cmd), true)])).clocks dev
        scanPulses := by
    rw [← Tap.clocks_append, ← Tap.clocks_append]
    simp only [commandPulses, List.append_assoc]
  refine ⟨(t.clocks dev scanPulses).tdos dev
    ((commandBits cmd).map (·, false) ++ [(parityOf (commandBits cmd), true)]), ?_, ?_, ?_⟩
  · simp [commandBits]
  · rw [hsplit, Tap.clocks_state, hexit]
    rfl
  · rw [hsplit, Tap.clocks_events (Tap.clocks_ready dev hready _), hexit, hir, hscan.2]
    rfl

theorem dataScan_eq (h : t.Ready) (hstate : t.state = .shiftDr) (bits : List Bool) (b : Bool) :
    (t.clocks dev (bits.map (·, false) ++ [(b, true)] ++ [(false, true), (false, false)])).state =
        .runTestIdle ∧
      (t.clocks dev (bits.map (·, false) ++ [(b, true)] ++ [(false, true), (false, false)])).events =
        t.events ++ List.zipWith .shiftDr (bits ++ [b])
          (t.tdos dev (bits.map (·, false) ++ [(b, true)])) ++ [.updateDr] := by
  obtain ⟨hexit, hdr⟩ := Tap.clocks_shiftDr dev h hstate bits b
  constructor
  · rw [Tap.clocks_append, Tap.clocks_state, hexit]
    rfl
  · rw [Tap.clocks_append, Tap.clocks_events (Tap.clocks_ready dev h _), hexit, hdr]
    rfl

end Pulses

theorem registerPulses_true (r : HptdcRegisterValue) :
    registerPulses true r = r.field.map (·, false) := by
  simp [registerPulses, HptdcRegisterValue.field]

theorem registerPulses_false {r : HptdcRegisterValue} (h : 1 ≤ r.bits.toNat) :
    ∃ bits b, r.field = bits ++ [b] ∧ registerPulses false r = bits.map (·, false) ++ [(b, true)] := by
  obtain ⟨m, hm⟩ := Nat.exists_eq_succ_of_ne_zero (Nat.pos_iff_ne_zero.mp h)
  refine ⟨(List.range m).map r.value.getLsbD, r.value.getLsbD m, ?_, ?_⟩
  · rw [HptdcRegisterValue.field, hm, Nat.succ_eq_add_one, List.range_succ, List.map_append]
    rfl
  · rw [registerPulses, hm, Nat.succ_eq_add_one, List.range_succ, List.map_append, List.map_map]
    refine congrArg₂ (· ++ ·) (List.map_congr_left fun i hi => ?_) ?_
    · have hlt := List.mem_range.mp hi
      simp [Nat.ne_of_lt hlt]
    · simp

@[simp] theorem length_field (r : HptdcRegisterValue) : r.field.length = r.bits.toNat := by
  rw [HptdcRegisterValue.field, List.length_map, List.length_range]

theorem length_dataPulses (wreg : List HptdcRegisterValue) (pflg : Bool) :
    (dataPulses wreg pflg).length = (fields wreg).length := by
  simp [dataPulses, fields, List.length_flatMap]

theorem dataPulses_scan {wreg : List HptdcRegisterValue} {pflg : Bool} (hsize : WellSized wreg)
    (h : pflg = true ∨ wreg.length = 1) :
    ∃ bits b, dataBits wreg pflg = bits ++ [b] ∧
      dataPulses wreg pflg ++ (if pflg then [(parityOf (fields wreg), true)] else []) =
        bits.map (·, false) ++ [(b, true)] := by
  cases pflg with
  | true =>
    refine ⟨fields wreg, parityOf (fields wreg), rfl, ?_⟩
    rw [if_pos rfl, dataPulses, fields, List.map_flatMap, funext registerPulses_true]
  | false =>
    obtain ⟨r, rfl⟩ := List.length_eq_one_iff.mp (h.resolve_left Bool.false_ne_true)
    obtain ⟨bits, b, hfield, hpulses⟩ := registerPulses_false (hsize r (List.mem_singleton_self r)).1
    refine ⟨bits, b, ?_, ?_⟩
    · simp [dataBits, fields, hfield]
    · simp [dataPulses, hpulses]

section Scan

variable (dev : TapDevice) {t : Tap}

theorem drShifts_lt (h : t.Ready) {r₁ r₂ : HptdcRegisterValue} {wreg : List HptdcRegisterValue}
    (hsize : WellSized (r₁ :: r₂ :: wreg)) :
    drShifts (t.clocks dev (dataPulses (r₁ :: r₂ :: wreg) false
      ++ finalPulses (r₁ :: r₂ :: wreg) false)).events <
        drShifts t.events + (fields (r₁ :: r₂ :: wreg)).length := by
  obtain ⟨init, r, hinit⟩ : ∃ init r, r₂ :: wreg = init ++ [r] :=
    ⟨_, _, (List.dropLast_append_getLast (List.cons_ne_nil r₂ wreg)).symm⟩
  obtain ⟨bits₁, b₁, -, hpulses₁⟩ := registerPulses_false (hsize r₁ List.mem_cons_self).1
  obtain ⟨bits, b, -, hpulses⟩ := registerPulses_false
    (hsize r (List.mem_cons_of_mem r₁ (by rw [hinit]; simp))).1
  have hdata : dataPulses (r₁ :: r₂ :: wreg) false = registerPulses false r₁ ++
      (init.flatMap (registerPulses false) ++ bits.map (·, false) ++ [(b, true)]) := by
    rw [hinit, dataPulses, List.flatMap_cons, List.flatMap_append, List.flatMap_singleton, hpulses,
      List.append_assoc]
  have hlength := length_dataPulses (r₁ :: r₂ :: wreg) false
  rw [hdata, List.length_append] at hlength
  rw [← hlength, hdata, List.append_assoc, Tap.clocks_append, Tap.clocks_append]
  generalize hv : t.clocks dev (registerPulses false r₁) = v
  have hfirst : drShifts v.events ≤ drShifts t.events + (registerPulses false r₁).length := by
    rw [← hv]
    exact Tap.clocks_drShifts_le h _
  have hvready : v.Ready := by
    rw [← hv]
    exact Tap.clocks_ready dev h _
  have hvstate : v.state ≠ .shiftDr := by
    rw [← hv, hpulses₁]
    exact Tap.clocks_high_ne_shiftDr _ _
  have hrest := Tap.clocks_drShifts_lt dev hvready hvstate
    (init.flatMap (registerPulses false) ++ bits.map (·, false) ++ [(b, true)]) (by simp)
  generalize hw : v.clocks dev (init.flatMap (registerPulses false) ++ bits.map (·, false)
    ++ [(b, true)]) = w at hrest
  have hwready : w.Ready := by
    rw [← hw]
    exact Tap.clocks_ready dev hvready _
  have hwstate : w.state ≠ .shiftDr := by
    rw [← hw]
    exact Tap.clocks_high_ne_shiftDr _ _
  -- behind the last register the port has left the shift state and does not come back to it
  have hlast : drShifts (w.clocks dev (finalPulses (r₁ :: r₂ :: wreg) false)).events =
      drShifts w.events := by
    show drShifts ((w.clock dev false true).clock dev false false).events = _
    rw [Tap.clock_drShifts Tap.clock_ready (false, false), Tap.clock_drShifts hwready (false, true),
      Tap.clock_state, if_neg (next_true_ne_shiftDr _), if_neg hwstate]
    rfl
  rw [hlast]
  omega

/-- **The command goes out as it should** if and only if the parity flag is set or there is just one
register. -/
theorem hptdcCommand_executes_iff (t : Tap) (cmd : U32)
    (wreg : List HptdcRegisterValue) (pflg rflg : Bool)
    (hstart : rflg = true ∨ t.state = .runTestIdle) (hsize : WellSized wreg) :
    (∃ irOut drOut, Executes (startPort dev t rflg) cmd wreg pflg irOut drOut
        (hptdcCommand dev t cmd wreg pflg rflg).1 (hptdcCommand dev t cmd wreg pflg rflg).2) ↔
      pflg = true ∨ wreg.length = 1 := by
  have hidle : (startPort dev t rflg).state = .runTestIdle := by
    cases rflg with
    | true => exact (hptdcStateReset_idle dev t).1
    | false => exact hstart.resolve_left Bool.false_ne_true
  obtain ⟨rreg, hcommand, hfields, hbounds, hsmall⟩ :=
    hptdcCommand_eq dev t cmd wreg pflg rflg hidle hsize
  rw [hcommand]
  generalize hs : ({ startPort dev t rflg with tck := false } : Tap) = s at hfields ⊢
  have hevents : s.events = (startPort dev t rflg).events := by rw [← hs]
  have hstate : s.state = .runTestIdle := by rw [← hs]; exact hidle
  have hready : s.Ready := ⟨by rw [← hs], fun h => by rw [hstate] at h; simp at h⟩
  obtain ⟨irOut, hirLength, hshift, hir⟩ := commandPulses_eq dev hready hstate cmd
  rw [hevents] at hir
  have hready' := Tap.clocks_ready dev hready (commandPulses cmd)
  rw [List.append_assoc, Tap.clocks_append]
  generalize s.clocks dev (commandPulses cmd) = u at hfields hshift hir hready' ⊢
  constructor
  · rintro ⟨irOut', drOut, hexec⟩
    by_contra hneither
    obtain ⟨hpflg, hlength⟩ := not_or.mp hneither
    obtain rfl := Bool.eq_false_of_not_eq_true hpflg
    match wreg, hlength with
    | [], _ =>
      have hpause := hexec.idle
      rw [Tap.clocks_state, hshift] at hpause
      cases hpause
    | r₁ :: r₂ :: wreg, _ =>
      have hlt := drShifts_lt dev hready' hsize
      rw [hexec.events, hir] at hlt
      simp only [drShifts_append, drShifts_zipWith_shiftIr,
        drShifts_zipWith _ _ hexec.drLength] at hlt
      rw [show drShifts [TapEvent.captureIr] = 0 from rfl,
        show drShifts [TapEvent.updateIr, TapEvent.captureDr] = 0 from rfl,
        show drShifts [TapEvent.updateDr] = 0 from rfl, dataBits, if_neg Bool.false_ne_true,
        List.append_nil] at hlt
      omega
  · intro h
    obtain ⟨bits, b, hdata, hpulses⟩ := dataPulses_scan hsize h
    have hfinal : dataPulses wreg pflg ++ finalPulses wreg pflg =
        bits.map (·, false) ++ [(b, true)] ++ [(false, true), (false, false)] := by
      rw [finalPulses, ← List.append_assoc, hpulses]
    obtain ⟨hend, hdr⟩ := dataScan_eq dev hready' hshift bits b
    rw [hfinal]
    refine ⟨irOut, u.tdos dev (bits.map (·, false) ++ [(b, true)]), ?_, hirLength, ?_, hbounds, ?_,
      hsmall, hend⟩
    · rw [hdr, hir, hdata]
    · simp [hdata]
    · rw [hfields, ← hpulses, Tap.tdos_append, ← length_dataPulses wreg pflg,
        List.take_left' (Tap.length_tdos _)]

end Scan

/-! ### Two control registers -/

/-- A device that captures nothing, behind an idle port. -/
def silentDevice : TapDevice := ⟨fun _ => [], fun _ => []⟩

def idlePort : Tap := ⟨false, .runTestIdle, [], false, []⟩

/-- Two registers of the control data. -/
def controlRegisters : List HptdcRegisterValue := [⟨0b1010, 3, 0⟩, ⟨0b11, 5, 4⟩]

theorem controlRegisters_sized : WellSized controlRegisters := by
  intro r hr
  simp only [controlRegisters, List.mem_cons, List.not_mem_nil, or_false] at hr
  obtain rfl | rfl := hr <;> decide

theorem hptdcCommand_executes_iff_control :
    ∃ irOut drOut, Executes idlePort 9 controlRegisters true irOut drOut
      (hptdcCommand silentDevice idlePort 9 controlRegisters true false).1
      (hptdcCommand silentDevice idlePort 9 controlRegisters true false).2 :=
  (hptdcCommand_executes_iff silentDevice idlePort 9 controlRegisters true false (.inr rfl)
    controlRegisters_sized).mpr (.inl rfl)

/-- Without the parity flag the port leaves the shift state behind the first register: the second
one does not get into the data register. -/
theorem hptdcCommand_splits :
    WellSized controlRegisters ∧
      ¬ ∃ irOut drOut, Executes (startPort silentDevice idlePort false) 9 controlRegisters false
        irOut drOut (hptdcCommand silentDevice idlePort 9 controlRegisters false false).1
        (hptdcCommand silentDevice idlePort 9 controlRegisters false false).2 := by
  refine ⟨controlRegisters_sized, fun ⟨irOut, drOut, hexec⟩ => ?_⟩
  have hcount : drShifts (hptdcCommand silentDevice idlePort 9 controlRegisters false false).2.events
      = 4 := by decide +kernel
  rw [hexec.events] at hcount
  simp only [drShifts_append, drShifts_zipWith_shiftIr, drShifts_zipWith _ _ hexec.drLength] at hcount
  have hlength : (dataBits controlRegisters false).length = 6 := by decide
  omega

end KernelModules.Ctr
