import KernelModules.Vmod.TtlEvents
import Mathlib.Tactic

/-!
# Configuration of a VMOD-TTL board

The driver keeps a copy of the configuration of a board, which `READ_CONFIG` returns: the settings
of the ports, and a pattern for each bit of ports A and B.  The Z8536 of the board has the patterns
in three registers for each port.

* `TtlDev` is the board's record with its registers, `TtlDev.run` a request;
* `TtlDev.InForce` is that the copy and the registers have what was accepted last,
  `TtlDev.Keeps` that a request leaves it so and changes nothing when it fails;
* `inForce_of_reachUnder` holds both over every run of `Settling` requests, and shows that the
  condition is exact at each of them.

A register holds what was written to it last.  A pattern for a bit that the table has no entry for
has no outcome.
-/

namespace KernelModules.Vmod

open Function KernelModules.Lib

/-- The three registers that hold the patterns of a port. -/
inductive PatReg
  | ppr
  | ptr
  | pmr
  deriving DecidableEq, Repr

/-- The registers of the Z8536 that the driver writes; `DPPR`, `DDR` and `SIOCR` are there for port
C too. -/
inductive CioReg
  | micr
  | mccr
  | pcsr (ch : Channel)
  | pmsr (ch : Channel)
  | dppr (ch : Channel)
  | ddr (ch : Channel)
  | siocr (ch : Channel)
  | dpprC
  | ddrC
  | siocrC
  | pat (k : PatReg) (ch : Channel)
  deriving DecidableEq, Repr

/-- `struct vmodttl_pattern`. -/
structure Pattern where
  port : BitVec 8
  pos : BitVec 8
  ptr : BitVec 8
  pmr : BitVec 8
  ppr : BitVec 8
  deriving DecidableEq, Repr

/-- The field of a pattern for a register. -/
def Pattern.field (buf : Pattern) : PatReg → BitVec 8
  | .ppr => buf.ppr
  | .ptr => buf.ptr
  | .pmr => buf.pmr

/-- `NR_BITS`. -/
def nrBits : ℕ := 8

/-- `struct vmodttlconfig`. -/
@[ext]
structure TtlConfig where
  ioFlag : BitVec 32
  usPulse : BitVec 32
  openCollector : BitVec 32
  invert : BitVec 32
  patternModeA : BitVec 32
  patternModeB : BitVec 32
  bitPatternA : ℕ → Pattern
  bitPatternB : ℕ → Pattern

def TtlConfig.bitPattern (conf : TtlConfig) : Channel → ℕ → Pattern
  | .a => conf.bitPatternA
  | .b => conf.bitPatternB

def TtlConfig.patternMode (conf : TtlConfig) : Channel → BitVec 32
  | .a => conf.patternModeA
  | .b => conf.patternModeB

/-- `struct vmodttl_dev` and its registers, and what was accepted last: the argument of `CONFIG`,
and the argument of `PATTERN` for each bit. -/
@[ext]
structure TtlDev where
  ioFlag : BitVec 32
  usPulse : BitVec 32
  openCollector : BitVec 32
  ioconfig : TtlConfig
  reg : CioReg → BitVec 8
  lastConfig : Option TtlConfig
  lastPattern : Channel → ℕ → Option Pattern

/-- `A_CHAN_OUT`, `B_CHAN_OUT`; the open-collector bits are the same. -/
def Channel.out : Channel → BitVec 32
  | .a => 0x01
  | .b => 0x02

/-- `PAE`, `PBE`. -/
def Channel.enable : Channel → BitVec 8
  | .a => 0x04
  | .b => 0x80

/-- `VMODTTL_O`, `MIE` and `NV`. -/
def vmodttlO : BitVec 32 := 0x08
def MIE : BitVec 8 := 0x80
def NV : BitVec 8 := 0x20

/-- `-EINVAL`, `-EIO` and `-EFAULT`. -/
def einval : ℤ := -22
def eio : ℤ := -5
def efault : ℤ := -14

def TtlDev.writeReg (s : TtlDev) (r : CioReg) (v : BitVec 8) : TtlDev :=
  { s with reg := update s.reg r v }

def TtlDev.writeRegs (s : TtlDev) (ws : List (CioReg × BitVec 8)) : TtlDev :=
  ws.foldl (fun s w => s.writeReg w.1 w.2) s

/-- The value of `DPPR` of a port that inverts, or does not. -/
def TtlDev.polarity (s : TtlDev) : BitVec 8 := if s.ioFlag &&& vmodttlO ≠ 0 then 0xff else 0x00

/-- The part of `vmodttl_def_io` for port A or B. -/
def TtlDev.defPort (s : TtlDev) (ch : Channel) : List (CioReg × BitVec 8) :=
  let output : Bool := s.ioFlag &&& ch.out ≠ 0
  [(.pcsr ch, 0xe0), (.pcsr ch, 0x20), (.pmsr ch, 0x14),
   (.ddr ch, if output then 0x00 else 0xff),
   (.dppr ch, if s.openCollector &&& ch.out = ch.out ∧ output then 0x00 else s.polarity),
   (.siocr ch, 0x00)]

/-- `vmodttl_def_io`. -/
def TtlDev.defIo (s : TtlDev) : TtlDev :=
  let s := s.writeRegs ([(.mccr, 0)] ++ s.defPort .a ++ s.defPort .b ++
    [(.ddrC, 0x00),
     (.dpprC, if s.openCollector &&& 0x04 = 0x04 then 0x00 else s.polarity &&& 0x0f),
     (.siocrC, 0x00)])
  s.writeReg .mccr (s.reg .mccr ||| 0x04 ||| 0x80 ||| 0x10)

/-- `vmodttl_default`. -/
def TtlDev.default (s : TtlDev) : TtlDev :=
  let s := (s.writeRegs [(.mccr, 0), (.micr, 0), (.micr, 0x01), (.micr, 0)]).defIo
  s.writeReg .micr (s.reg .micr ||| MIE ||| NV)

/-- `vmodttl_change_bit`. -/
def changeBit (reg bit : BitVec 8) (pos : ℕ) : BitVec 8 :=
  (reg &&& ~~~((1 : BitVec 8) <<< pos)) ||| (bit.setWidth 32 <<< pos).setWidth 8

/-- One of the three registers of a pattern. -/
def TtlDev.changeReg (s : TtlDev) (buf : Pattern) (ch : Channel) (k : PatReg) : TtlDev :=
  s.writeReg (.pat k ch) (changeBit (s.reg (.pat k ch)) (buf.field k) buf.pos.toNat)

/-- The registers of `vmodttl_pattern` for a port. -/
def TtlDev.patternRegs (s : TtlDev) (buf : Pattern) (ch : Channel) : TtlDev :=
  let s := s.writeRegs [(.pcsr ch, 0xe0), (.pcsr ch, 0x20)]
  let s := s.writeReg .mccr (s.reg .mccr &&& ~~~ch.enable)
  let s := s.writeRegs
    [(.pmsr ch, if s.ioconfig.patternMode ch ≠ 0 then 0x12 else 0x14),
     (.dppr ch, s.polarity), (.ddr ch, 0xff), (.siocr ch, 0x00)]
  let s := [PatReg.ppr, PatReg.ptr, PatReg.pmr].foldl (fun s k => s.changeReg buf ch k) s
  let s := s.writeReg .mccr (s.reg .mccr ||| ch.enable)
  s.writeReg (.pcsr ch) 0xc0

/-- The channel of a port number. -/
def Pattern.channel (buf : Pattern) : Option Channel :=
  if buf.port = 0 then some .a else if buf.port = 1 then some .b else none

/-- The part of `vmodttl_pattern` after the checks.  The copy for port B goes to the table of port
A. -/
def TtlDev.storePattern (s : TtlDev) (buf : Pattern) (ch : Channel) : TtlDev :=
  let s := { s with
    ioconfig := { s.ioconfig with
      bitPatternA := update s.ioconfig.bitPatternA buf.pos.toNat buf } }
  let s := s.patternRegs buf ch
  let s := s.writeReg .micr (s.reg .micr ||| MIE ||| NV)
  { s with
    lastPattern := update s.lastPattern ch (update (s.lastPattern ch) buf.pos.toNat (some buf)) }

/-- `vmodttl_pattern`. -/
def TtlDev.pattern (s : TtlDev) (buf : Pattern) : Option (ℤ × TtlDev) :=
  match buf.channel with
  | none => some (einval, s)
  | some ch =>
    let s := s.writeReg .micr (s.reg .micr &&& ~~~MIE)
    if s.ioFlag &&& ch.out ≠ 0 then some (eio, s)
    else if nrBits ≤ buf.pos.toNat then none
    else some (0, s.storePattern buf ch)

/-- `VMODTTL_CONFIG`, with `vmodttl_config`. -/
def TtlDev.config (s : TtlDev) (conf : TtlConfig) : ℤ × TtlDev :=
  let s := { s with ioconfig := conf }
  if conf.ioFlag.toInt > 0x01 + 0x02 + 0x04 ∨ conf.ioFlag.toInt < 0 then (einval, s)
  else
    let s := { s with
      ioFlag := if conf.invert ≠ 0 then conf.ioFlag ||| vmodttlO else conf.ioFlag
      usPulse := if conf.usPulse.toInt < 1 then 1 else conf.usPulse
      openCollector := conf.openCollector }
    (0, { s.defIo with lastConfig := some conf })

/-- `VMODTTL_READ_CONFIG`. -/
def TtlDev.readConfig (s : TtlDev) : TtlConfig := s.ioconfig

/-- A request; `fault` is one whose argument cannot be copied. -/
inductive TtlRequest
  | config (conf : TtlConfig)
  | pattern (buf : Pattern)
  | simpio
  | fault

def TtlDev.run (s : TtlDev) : TtlRequest → Option (ℤ × TtlDev)
  | .config conf => some (s.config conf)
  | .pattern buf => s.pattern buf
  | .simpio => some (0, s.defIo)
  | .fault => some (efault, s)

/-- The record of a new board. -/
def TtlDev.new (reg : CioReg → BitVec 8) : TtlDev :=
  ⟨0, 0, 0, ⟨0, 0, 0, 0, 0, 0, fun _ => ⟨0, 0, 0, 0, 0⟩, fun _ => ⟨0, 0, 0, 0, 0⟩⟩, reg, none,
    fun _ _ => none⟩

/-- A board: any requests in any order. -/
def ttlConfig : System TtlDev TtlRequest :=
  System.ofFun (fun s => ∃ reg, s = (TtlDev.new reg).default) fun s a => (s.run a).map Prod.snd

/-- The copy has the settings of the last `CONFIG` and the board works with them; the copy and the
registers have the patterns accepted last. -/
structure TtlDev.InForce (s : TtlDev) : Prop where
  settings : ∀ conf, s.lastConfig = some conf →
    s.readConfig.ioFlag = conf.ioFlag ∧ s.readConfig.usPulse = conf.usPulse ∧
      s.readConfig.openCollector = conf.openCollector ∧ s.readConfig.invert = conf.invert
  working : ∀ conf, s.lastConfig = some conf →
    s.ioFlag = (if conf.invert ≠ 0 then conf.ioFlag ||| vmodttlO else conf.ioFlag) ∧
      s.usPulse = (if conf.usPulse.toInt < 1 then 1 else conf.usPulse) ∧
      s.openCollector = conf.openCollector
  copy : ∀ ch pos buf, s.lastPattern ch pos = some buf → s.readConfig.bitPattern ch pos = buf
  bits : ∀ ch pos buf, s.lastPattern ch pos = some buf → ∀ k,
    ((s.reg (.pat k ch)).getLsbD pos).toNat = (buf.field k).toNat

/-- A request that keeps the copy and the registers in step, and changes nothing when it fails. -/
def TtlDev.Keeps (s : TtlDev) (a : TtlRequest) : Prop :=
  ∃ cc t, s.run a = some (cc, t) ∧ t.InForce ∧ (cc ≠ 0 → t = s)

/-- What leaves the copy and the registers in step: a `CONFIG` with a valid flag that repeats the
patterns accepted so far; a `PATTERN` for a wrong port, or for a bit of an input with fields of one
bit, which for port B the copy has already and whose bit of port A has no pattern. -/
def Settling (s : TtlDev) : TtlRequest → Prop
  | .config conf => (0 ≤ conf.ioFlag.toInt ∧ conf.ioFlag.toInt ≤ 7) ∧
      ∀ ch pos buf, s.lastPattern ch pos = some buf → conf.bitPattern ch pos = buf
  | .pattern buf => ∀ ch, buf.channel = some ch →
      s.ioFlag &&& ch.out = 0 ∧ buf.pos.toNat < nrBits ∧ (∀ k, (buf.field k).toNat ≤ 1) ∧
        (ch = .b → s.ioconfig.bitPatternB buf.pos.toNat = buf ∧
          s.lastPattern .a buf.pos.toNat = none)
  | .simpio => True
  | .fault => True

/-! ### Registers -/

theorem changeBit_self (reg bit : BitVec 8) {pos : ℕ} (hpos : pos < nrBits) :
    (changeBit reg bit pos).getLsbD pos = bit.getLsbD 0 := by
  change pos < 8 at hpos
  simp [changeBit, hpos]

theorem getLsbD_of_le_one {w : ℕ} {v : BitVec w} (hv : v.toNat ≤ 1) {j : ℕ} (hj : j ≠ 0) :
    v.getLsbD j = false := by
  rw [← BitVec.testBit_toNat]
  exact Nat.testBit_lt_two_pow (hv.trans_lt (Nat.one_lt_two_pow hj))

theorem changeBit_of_ne (reg : BitVec 8) {bit : BitVec 8} {pos i : ℕ} (hbit : bit.toNat ≤ 1)
    (hne : i ≠ pos) (hi : i < nrBits) : (changeBit reg bit pos).getLsbD i = reg.getLsbD i := by
  change i < 8 at hi
  have hshift : ∀ {w : ℕ} {v : BitVec w}, v.toNat ≤ 1 → (v <<< pos).getLsbD i = false := by
    intro w v hv
    rw [BitVec.getLsbD_shiftLeft]
    by_cases hlt : i < pos
    · simp [hlt]
    · rw [getLsbD_of_le_one hv (by omega), Bool.and_false]
  have hkeep : ((1 : BitVec 8) <<< pos).getLsbD i = false := hshift le_rfl
  have hwide : (bit.setWidth 32).toNat ≤ 1 := by
    rw [BitVec.toNat_setWidth]
    exact (Nat.mod_le _ _).trans hbit
  have hnew : ((bit.setWidth 32 <<< pos).setWidth 8).getLsbD i = false := by
    rw [BitVec.getLsbD_setWidth, hshift hwide, Bool.and_false]
  rw [changeBit, BitVec.getLsbD_or, hnew, BitVec.getLsbD_and, BitVec.getLsbD_not, hkeep]
  simp [hi]

/-- The board has other registers, and is the same besides. -/
def TtlDev.SameButRegs (s t : TtlDev) : Prop := ∃ reg, t = { s with reg := reg }

theorem TtlDev.SameButRegs.writeReg {s t : TtlDev} (h : s.SameButRegs t) (r : CioReg)
    (v : BitVec 8) : s.SameButRegs (t.writeReg r v) := by
  obtain ⟨reg, rfl⟩ := h
  exact ⟨_, rfl⟩

theorem TtlDev.SameButRegs.writeRegs {s t : TtlDev} (h : s.SameButRegs t)
    (ws : List (CioReg × BitVec 8)) : s.SameButRegs (t.writeRegs ws) := by
  induction ws generalizing t with
  | nil => exact h
  | cons w ws ih => exact ih (h.writeReg w.1 w.2)

theorem TtlDev.SameButRegs.refl (s : TtlDev) : s.SameButRegs s := ⟨s.reg, rfl⟩

theorem TtlDev.SameButRegs.defIo {s t : TtlDev} (h : s.SameButRegs t) : s.SameButRegs t.defIo :=
  (h.writeRegs _).writeReg _ _

theorem patternRegs_sameButRegs (s : TtlDev) (buf : Pattern) (ch : Channel) :
    s.SameButRegs (s.patternRegs buf ch) := by
  have hstart := (((TtlDev.SameButRegs.refl s).writeRegs
    [(.pcsr ch, 0xe0), (.pcsr ch, 0x20)]).writeReg .mccr (s.reg .mccr &&& ~~~ch.enable)).writeRegs
    [(.pmsr ch, if s.ioconfig.patternMode ch ≠ 0 then 0x12 else 0x14),
     (.dppr ch, s.polarity), (.ddr ch, 0xff), (.siocr ch, 0x00)]
  exact ((((hstart.writeReg _ _).writeReg _ _).writeReg _ _).writeReg _ _).writeReg _ _

theorem patternRegs_reg (s : TtlDev) (buf : Pattern) (ch : Channel) (k : PatReg) (c : Channel) :
    (s.patternRegs buf ch).reg (.pat k c) =
      if c = ch then changeBit (s.reg (.pat k c)) (buf.field k) buf.pos.toNat
      else s.reg (.pat k c) := by
  by_cases hc : c = ch
  · subst hc
    rw [if_pos rfl]
    cases k <;> cases c <;> rfl
  · rw [if_neg hc]
    cases k <;> cases c <;> cases ch <;> first | rfl | exact absurd rfl hc

theorem defIo_micr (s : TtlDev) : s.defIo.reg .micr = s.reg .micr := rfl

theorem defIo_pat (s : TtlDev) (k : PatReg) (ch : Channel) :
    s.defIo.reg (.pat k ch) = s.reg (.pat k ch) := by
  cases k <;> cases ch <;> rfl

/-! ### One request -/

/-- What holds between two requests. -/
structure TtlDev.Settled (s : TtlDev) : Prop where
  inForce : s.InForce
  mie : s.reg .micr &&& MIE = MIE
  flag : 0 ≤ s.ioconfig.ioFlag.toInt ∧ s.ioconfig.ioFlag.toInt ≤ 7
  port : ∀ ch pos buf, s.lastPattern ch pos = some buf → buf.channel = some ch ∧ pos < nrBits

variable {s : TtlDev}

theorem mie_or (v : BitVec 8) : (v ||| MIE ||| NV) &&& MIE = MIE := by
  rw [BitVec.or_assoc, BitVec.or_comm v, BitVec.and_comm]
  ext i hi
  rw [BitVec.getElem_and, BitVec.getElem_or]
  unfold MIE NV
  interval_cases i <;> simp

theorem settled_default (reg : CioReg → BitVec 8) : ((TtlDev.new reg).default).Settled := by
  have hstart := (TtlDev.SameButRegs.refl (TtlDev.new reg)).writeRegs
    [(.mccr, 0), (.micr, 0), (.micr, 0x01), (.micr, 0)]
  obtain ⟨regs, hregs⟩ : (TtlDev.new reg).SameButRegs (TtlDev.new reg).default :=
    hstart.defIo.writeReg _ _
  have hmie : (TtlDev.new reg).default.reg .micr &&& MIE = MIE := mie_or _
  rw [hregs] at hmie ⊢
  refine ⟨⟨fun conf h => ?_, fun conf h => ?_, fun ch pos buf h => ?_, fun ch pos buf h => ?_⟩,
    hmie, ?_, fun ch pos buf h => ?_⟩
  · cases h
  · cases h
  · cases h
  · cases h
  · change 0 ≤ (0 : BitVec 32).toInt ∧ (0 : BitVec 32).toInt ≤ 7
    decide
  · cases h

theorem config_eq {conf : TtlConfig} (hflag : 0 ≤ conf.ioFlag.toInt ∧ conf.ioFlag.toInt ≤ 7) :
    ∃ reg, s.config conf = (0, { s with
      ioFlag := if conf.invert ≠ 0 then conf.ioFlag ||| vmodttlO else conf.ioFlag
      usPulse := if conf.usPulse.toInt < 1 then 1 else conf.usPulse
      openCollector := conf.openCollector
      ioconfig := conf
      reg := reg
      lastConfig := some conf }) ∧ reg .micr = s.reg .micr ∧
      ∀ k ch, reg (.pat k ch) = s.reg (.pat k ch) := by
  have hvalid : ¬ (conf.ioFlag.toInt > 0x01 + 0x02 + 0x04 ∨ conf.ioFlag.toInt < 0) := by omega
  let t : TtlDev := { s with
      ioFlag := if conf.invert ≠ 0 then conf.ioFlag ||| vmodttlO else conf.ioFlag
      usPulse := if conf.usPulse.toInt < 1 then 1 else conf.usPulse
      openCollector := conf.openCollector
      ioconfig := conf }
  obtain ⟨reg, hreg⟩ := (TtlDev.SameButRegs.refl t).defIo
  have hregs : t.defIo.reg = reg := by rw [hreg]
  refine ⟨reg, ?_, ?_, fun k ch => ?_⟩
  · have hrun : s.config conf = (0, { t.defIo with lastConfig := some conf }) := if_neg hvalid
    rw [hrun, hreg]
  · rw [← hregs]
    exact defIo_micr t
  · rw [← hregs]
    exact defIo_pat t k ch

theorem pattern_eq {buf : Pattern} {ch : Channel} (hch : buf.channel = some ch)
    (hin : s.ioFlag &&& ch.out = 0) (hpos : buf.pos.toNat < nrBits) :
    ∃ reg, s.pattern buf = some (0, { s with
      ioconfig := { s.ioconfig with
        bitPatternA := update s.ioconfig.bitPatternA buf.pos.toNat buf }
      reg := reg
      lastPattern := update s.lastPattern ch
        (update (s.lastPattern ch) buf.pos.toNat (some buf)) }) ∧
      reg .micr &&& MIE = MIE ∧ ∀ k c, reg (.pat k c) =
        if c = ch then changeBit (s.reg (.pat k c)) (buf.field k) buf.pos.toNat
        else s.reg (.pat k c) := by
  obtain ⟨u, hu⟩ : ∃ u, u = s.writeReg .micr (s.reg .micr &&& ~~~MIE) := ⟨_, rfl⟩
  obtain ⟨t, ht⟩ : ∃ t, t = { u with
    ioconfig := { u.ioconfig with
      bitPatternA := update u.ioconfig.bitPatternA buf.pos.toNat buf } } := ⟨_, rfl⟩
  obtain ⟨reg, hreg⟩ := patternRegs_sameButRegs t buf ch
  have hregs : (t.patternRegs buf ch).reg = reg := by rw [hreg]
  have hstore : u.storePattern buf ch = { t with
      reg := update reg .micr (reg .micr ||| MIE ||| NV)
      lastPattern := update t.lastPattern ch
        (update (t.lastPattern ch) buf.pos.toNat (some buf)) } := by
    unfold TtlDev.storePattern
    rw [← ht]
    simp only
    rw [hreg]
    rfl
  refine ⟨update reg .micr (reg .micr ||| MIE ||| NV), ?_, ?_, fun k c => ?_⟩
  · have hout : ¬ (s.ioFlag &&& ch.out ≠ 0) := not_not.mpr hin
    have hsame : u.ioFlag = s.ioFlag := by
      rw [hu]
      rfl
    have hrun : s.pattern buf = some (0, u.storePattern buf ch) := by
      rw [TtlDev.pattern, hch]
      simp only
      rw [← hu, hsame, if_neg hout, if_neg (not_le.mpr hpos)]
    rw [hrun, hstore, ht, hu]
    rfl
  · rw [update_self]
    exact mie_or _
  · rw [update_of_ne (by simp), ← hregs, patternRegs_reg, ht, hu]
    rfl

theorem pattern_refused {buf : Pattern} :
    (buf.channel = none → s.pattern buf = some (einval, s)) ∧
    ∀ ch, buf.channel = some ch → s.ioFlag &&& ch.out ≠ 0 →
      s.pattern buf = some (eio, s.writeReg .micr (s.reg .micr &&& ~~~MIE)) := by
  constructor
  · intro hch
    rw [TtlDev.pattern, hch]
  · intro ch hch hout
    rw [TtlDev.pattern, hch]
    exact if_pos hout

theorem pattern_outside {buf : Pattern} {ch : Channel} (hch : buf.channel = some ch)
    (hin : s.ioFlag &&& ch.out = 0) (hpos : nrBits ≤ buf.pos.toNat) : s.pattern buf = none := by
  have hout : ¬ (s.ioFlag &&& ch.out ≠ 0) := not_not.mpr hin
  rw [TtlDev.pattern, hch]
  change (if s.ioFlag &&& ch.out ≠ 0 then _ else if nrBits ≤ buf.pos.toNat then _ else _) = _
  rw [if_neg hout, if_pos hpos]

theorem config_refused {conf : TtlConfig}
    (hflag : ¬ (0 ≤ conf.ioFlag.toInt ∧ conf.ioFlag.toInt ≤ 7)) :
    s.config conf = (einval, { s with ioconfig := conf }) := by
  have hwrong : conf.ioFlag.toInt > 0x01 + 0x02 + 0x04 ∨ conf.ioFlag.toInt < 0 := by omega
  exact if_pos hwrong

theorem channel_b {buf : Pattern} (h : buf.channel = some .b) : buf.channel ≠ some .a := by
  rw [h]
  exact fun hab => absurd hab (by decide)

theorem TtlDev.Settled.config_iff (hs : s.Settled) (conf : TtlConfig) :
    s.Keeps (.config conf) ↔ Settling s (.config conf) := by
  by_cases hflag : 0 ≤ conf.ioFlag.toInt ∧ conf.ioFlag.toInt ≤ 7
  · obtain ⟨reg, hrun, -, hpat⟩ := @config_eq s conf hflag
    constructor
    · rintro ⟨cc, t, ht, hforce, -⟩
      have hsome : some (s.config conf) = some (cc, t) := ht
      rw [hrun] at hsome
      cases hsome
      exact ⟨hflag, fun ch pos buf h => hforce.copy ch pos buf h⟩
    · rintro ⟨-, hsame⟩
      refine ⟨0, _, congrArg some hrun, ⟨fun c h => ?_, fun c h => ?_, hsame,
        fun ch pos buf h k => ?_⟩, fun h => absurd rfl h⟩
      · cases h
        exact ⟨rfl, rfl, rfl, rfl⟩
      · cases h
        exact ⟨rfl, rfl, rfl⟩
      · have hbits := hs.inForce.bits ch pos buf h k
        rw [← hpat] at hbits
        exact hbits
  · refine iff_of_false ?_ fun h => hflag h.1
    rintro ⟨cc, t, ht, -, hsame⟩
    have hsome : some (s.config conf) = some (cc, t) := ht
    rw [config_refused hflag] at hsome
    cases hsome
    -- the copy had a valid flag
    have hconf : conf = s.ioconfig := congrArg TtlDev.ioconfig (hsame (by decide))
    rw [hconf] at hflag
    exact hflag hs.flag

theorem TtlDev.Settled.config (hs : s.Settled) {conf : TtlConfig} (ha : Settling s (.config conf)) :
    (s.config conf).2.Settled := by
  obtain ⟨cc, t, ht, hforce, -⟩ := (hs.config_iff conf).mpr ha
  obtain ⟨reg, hrun, hmicr, -⟩ := @config_eq s conf ha.1
  have hsome : some (s.config conf) = some (cc, t) := ht
  rw [hrun] at hsome ⊢
  cases hsome
  exact ⟨hforce, (congrArg (· &&& MIE) hmicr).trans hs.mie, ha.1, hs.port⟩

theorem lastPattern_update {ch c : Channel} {n pos : ℕ} {buf b : Pattern}
    (h : update s.lastPattern ch (update (s.lastPattern ch) n (some buf)) c pos = some b) :
    (c = ch ∧ pos = n ∧ b = buf) ∨ (¬ (c = ch ∧ pos = n) ∧ s.lastPattern c pos = some b) := by
  rcases eq_or_ne c ch with rfl | hc
  · rw [update_self] at h
    rcases eq_or_ne pos n with rfl | hpos
    · rw [update_self] at h
      cases h
      exact .inl ⟨rfl, rfl, rfl⟩
    · rw [update_of_ne hpos] at h
      exact .inr ⟨fun hboth => hpos hboth.2, h⟩
  · rw [update_of_ne hc] at h
    exact .inr ⟨fun hboth => hc hboth.1, h⟩

theorem lastPattern_update_self (s : TtlDev) (ch : Channel) (n : ℕ) (buf : Pattern) :
    update s.lastPattern ch (update (s.lastPattern ch) n (some buf)) ch n = some buf := by
  rw [update_self, update_self]

theorem TtlDev.Settled.pattern_iff (hs : s.Settled) (buf : Pattern) :
    s.Keeps (.pattern buf) ↔ Settling s (.pattern buf) := by
  cases hch : buf.channel with
  | none =>
    refine iff_of_true ⟨einval, s, pattern_refused.1 hch, hs.inForce, fun _ => rfl⟩ fun ch h => ?_
    rw [hch] at h
    cases h
  | some ch =>
    have hone : Settling s (.pattern buf) ↔ s.ioFlag &&& ch.out = 0 ∧ buf.pos.toNat < nrBits ∧
        (∀ k, (buf.field k).toNat ≤ 1) ∧ (ch = .b → s.ioconfig.bitPatternB buf.pos.toNat = buf ∧
          s.lastPattern .a buf.pos.toNat = none) := by
      constructor
      · exact fun h => h ch hch
      · intro h c hc
        rw [hch] at hc
        cases hc
        exact h
    rw [hone]
    by_cases hin : s.ioFlag &&& ch.out = 0
    · by_cases hpos : buf.pos.toNat < nrBits
      · obtain ⟨reg, hrun, -, hpat⟩ := pattern_eq hch hin hpos
        have hself : ∀ k, (reg (.pat k ch)).getLsbD buf.pos.toNat = (buf.field k).getLsbD 0 := by
          intro k
          rw [hpat, if_pos rfl, changeBit_self _ _ hpos]
        constructor
        · rintro ⟨cc, t, ht, hforce, -⟩
          rw [TtlDev.run, hrun] at ht
          cases ht
          refine ⟨hin, hpos, fun k => ?_, ?_⟩
          · have hbit := hforce.bits ch _ buf (lastPattern_update_self s ch buf.pos.toNat buf) k
            rw [← hbit]
            cases ((reg (.pat k ch)).getLsbD buf.pos.toNat) <;> decide
          · rintro rfl
            refine ⟨hforce.copy .b _ buf (lastPattern_update_self s .b buf.pos.toNat buf), ?_⟩
            -- the entry of port A has been overwritten
            by_contra hsome
            obtain ⟨b, hb⟩ := Option.ne_none_iff_exists'.mp hsome
            have hkept : update s.lastPattern .b
                (update (s.lastPattern .b) buf.pos.toNat (some buf)) .a buf.pos.toNat = some b := by
              rw [update_of_ne (by decide)]
              exact hb
            have hcopy := hforce.copy .a _ b hkept
            change update s.ioconfig.bitPatternA buf.pos.toNat buf buf.pos.toNat = b at hcopy
            rw [update_self] at hcopy
            have hport := (hs.port .a _ b hb).1
            rw [← hcopy] at hport
            exact channel_b hch hport
        · rintro ⟨-, -, hfields, hb⟩
          refine ⟨0, _, hrun, ⟨hs.inForce.settings, hs.inForce.working, fun c pos b h => ?_,
            fun c pos b h k => ?_⟩, fun h => absurd rfl h⟩
          · rcases lastPattern_update h with ⟨rfl, rfl, rfl⟩ | ⟨hnot, hold⟩
            · cases c with
              | a => exact update_self ..
              | b => exact (hb rfl).1
            · have hcopy := hs.inForce.copy c pos b hold
              cases c with
              | a =>
                refine (update_of_ne ?_ ..).trans hcopy
                rintro rfl
                cases ch with
                | a => exact hnot ⟨rfl, rfl⟩
                | b => exact absurd ((hb rfl).2.symm.trans hold) (by simp)
              | b => exact hcopy
          · change ((reg (.pat k c)).getLsbD pos).toNat = _
            rcases lastPattern_update h with ⟨rfl, rfl, rfl⟩ | ⟨hnot, hold⟩
            · rw [hself]
              have hle := hfields k
              obtain hzero | hone := Nat.le_one_iff_eq_zero_or_eq_one.mp hle
              · have hval : b.field k = 0 := BitVec.eq_of_toNat_eq hzero
                rw [hval]
                rfl
              · have hval : b.field k = 1 := BitVec.eq_of_toNat_eq hone
                rw [hval]
                rfl
            · have hbits := hs.inForce.bits c pos b hold k
              rw [hpat]
              by_cases hc : c = ch
              · rw [if_pos hc, changeBit_of_ne _ (hfields k) (fun hp => hnot ⟨hc, hp⟩)
                  (hs.port c pos b hold).2]
                exact hbits
              · rw [if_neg hc]
                exact hbits
      · refine iff_of_false ?_ fun h => hpos h.2.1
        rintro ⟨cc, t, ht, -, -⟩
        rw [TtlDev.run, pattern_outside hch hin (not_lt.mp hpos)] at ht
        cases ht
    · refine iff_of_false ?_ fun h => hin h.1
      rintro ⟨cc, t, ht, -, hsame⟩
      rw [TtlDev.run, pattern_refused.2 ch hch hin] at ht
      cases ht
      -- the master interrupts were enabled
      have hmicr := congrArg (fun t : TtlDev => t.reg .micr) (hsame (by decide))
      change update s.reg .micr (s.reg .micr &&& ~~~MIE) .micr = s.reg .micr at hmicr
      rw [update_self] at hmicr
      have hmie := hs.mie
      rw [← hmicr, BitVec.and_assoc] at hmie
      have hzero : ~~~MIE &&& MIE = 0#8 := by decide
      rw [hzero, BitVec.and_zero] at hmie
      exact absurd hmie (by decide)

theorem TtlDev.Settled.pattern (hs : s.Settled) {buf : Pattern} (ha : Settling s (.pattern buf))
    {cc : ℤ} {t : TtlDev} (h : s.pattern buf = some (cc, t)) : t.Settled := by
  obtain ⟨cc', t', ht, hforce, -⟩ := (hs.pattern_iff buf).mpr ha
  cases h.symm.trans ht
  cases hch : buf.channel with
  | none =>
    rw [pattern_refused.1 hch] at h
    cases h
    exact hs
  | some ch =>
    obtain ⟨hin, hpos, -, -⟩ := ha ch hch
    obtain ⟨reg, hrun, hmie, -⟩ := pattern_eq hch hin hpos
    cases h.symm.trans hrun
    refine ⟨hforce, hmie, hs.flag, fun c pos b hb => ?_⟩
    rcases lastPattern_update hb with ⟨rfl, rfl, rfl⟩ | ⟨-, hold⟩
    · exact ⟨hch, hpos⟩
    · exact hs.port c pos b hold

theorem TtlDev.Settled.defIo (hs : s.Settled) : s.defIo.Settled := by
  obtain ⟨reg, hreg⟩ := (TtlDev.SameButRegs.refl s).defIo
  have hmicr : reg .micr = s.reg .micr := by
    rw [← defIo_micr, hreg]
  have hpat : ∀ k ch, reg (.pat k ch) = s.reg (.pat k ch) := by
    intro k ch
    rw [← defIo_pat, hreg]
  rw [hreg]
  refine ⟨⟨hs.inForce.settings, hs.inForce.working, hs.inForce.copy, fun ch pos buf h k => ?_⟩,
    (congrArg (· &&& MIE) hmicr).trans hs.mie, hs.flag, hs.port⟩
  change ((reg (.pat k ch)).getLsbD pos).toNat = _
  rw [hpat]
  exact hs.inForce.bits ch pos buf h k

theorem TtlDev.Settled.keeps_iff (hs : s.Settled) (a : TtlRequest) : s.Keeps a ↔ Settling s a := by
  cases a with
  | config conf => exact hs.config_iff conf
  | pattern buf => exact hs.pattern_iff buf
  | simpio => exact iff_of_true ⟨0, _, rfl, hs.defIo.inForce, fun h => absurd rfl h⟩ trivial
  | fault => exact iff_of_true ⟨efault, s, rfl, hs.inForce, fun _ => rfl⟩ trivial

theorem settled_of_reachUnder (h : ttlConfig.ReachUnder Settling s) : s.Settled := by
  refine h.invariant ?_ fun s a s' hs ha hstep => ?_
  · rintro _ ⟨reg, rfl⟩
    exact settled_default reg
  · obtain ⟨⟨cc, t⟩, ht, rfl⟩ := Option.map_eq_some_iff.mp hstep
    cases a with
    | config conf =>
      have heq : s.config conf = (cc, t) := Option.some.inj ht
      have hnext := hs.config ha
      rwa [heq] at hnext
    | pattern buf => exact hs.pattern ha ht
    | simpio =>
      cases ht
      exact hs.defIo
    | fault =>
      cases ht
      exact hs

/-- A board after its initialization. -/
def board : TtlDev := (TtlDev.new fun _ => 0).default

/-- The settings of a `CONFIG` with a flag, and no patterns. -/
def plainConfig (ioFlag : BitVec 32) : TtlConfig :=
  ⟨ioFlag, 1, 0, 0, 0, 0, fun _ => ⟨0, 0, 0, 0, 0⟩, fun _ => ⟨0, 0, 0, 0, 0⟩⟩

end KernelModules.Vmod
