import KernelModules.Lib.BitField
import Mathlib.Tactic

/-!
# Configuration of a VD80

The settings of the clock, the trigger and the number of samples lie in five registers of the
module.  Each `SET` call of the driver reads a register, changes its own field and writes it back;
the `GET` calls decode the fields.

* `Vd80Regs.set` and `Vd80Regs.get` are the calls, by the field that they are about;
* `Vd80Field.bits` are the bits that a `GET` looks at, `Vd80Field.writes` those that a `SET` may
  change: `get_congr` and `set_agree`;
* `get_run` is what is read back after any sequence of `SET` calls.

A register holds what was written to it last.
-/

namespace KernelModules.Vd80

open Function KernelModules.Lib.BitField

/-! ### The registers -/

inductive Vd80Reg
  | ccr
  | tcr1
  | tcr2
  | tcr3
  | ptcr
  deriving DecidableEq, Repr

abbrev Vd80Regs := Vd80Reg → BitVec 32

/-- The Clock Control Register. -/
def clkdivShift : ℕ := 16
def clkdivMask : BitVec 32 := 0xffff <<< clkdivShift
def clktermMask : BitVec 32 := 1 <<< 9
def clkterm50ohm : BitVec 32 := 1 <<< 9
def clktermNone : BitVec 32 := 0 <<< 9
def clkedgeMask : BitVec 32 := 1 <<< 8
def clkedgeRising : BitVec 32 := 0 <<< 8
def clkedgeFalling : BitVec 32 := 1 <<< 8
def clkdivmodeMask : BitVec 32 := 1 <<< 7
def clkdivmodeDivide : BitVec 32 := 0 <<< 7
def clkdivmodeSubsample : BitVec 32 := 1 <<< 7
def clksourceMask : BitVec 32 := 0xf <<< 0
def clksourceInt : BitVec 32 := 0 <<< 0
def clksourceExt : BitVec 32 := 8 <<< 0

/-- The Trigger Control Register 1. -/
def trigTermMask : BitVec 32 := 1 <<< 9
def trigTerm50ohm : BitVec 32 := 1 <<< 9
def trigTermNone : BitVec 32 := 0 <<< 9
def trigedgeMask : BitVec 32 := 1 <<< 8
def trigedgeRising : BitVec 32 := 0 <<< 8
def trigedgeFalling : BitVec 32 := 1 <<< 8
def trigsourceMask : BitVec 32 := 0xf <<< 0
def trigsourceInt : BitVec 32 := 0 <<< 0
def trigsourceExt : BitVec 32 := 8 <<< 0
def trigsourceAnalog : BitVec 32 := 9 <<< 0
def trigoutDelay : BitVec 32 := 1 <<< 11

/-- The Trigger Control Register 2. -/
def postsamplesMask : BitVec 32 := 0x7ffff <<< 0

/-- The Pre Trigger Control Register. -/
def pscntclkonsmpl : BitVec 32 := 1 <<< 2
def psregclronread : BitVec 32 := 1 <<< 1
def pscntclronstart : BitVec 32 := 1 <<< 0
def presamplesminShift : ℕ := 3
def presamplesminMask : BitVec 32 := 0x1fffffff <<< presamplesminShift

/-! ### The values of the calls -/

def divideModeDivide : BitVec 32 := 0
def divideModeSubsample : BitVec 32 := 1
def divideModes : BitVec 32 := 2
def edgeRising : BitVec 32 := 0
def edgeFalling : BitVec 32 := 1
def edges : BitVec 32 := 2
def terminationNone : BitVec 32 := 0
def termination50ohm : BitVec 32 := 1
def terminations : BitVec 32 := 2
def sourceInternal : BitVec 32 := 0
def sourceExternal : BitVec 32 := 1
def sources : BitVec 32 := 2

/-- `struct vd80_trig_config_s`. -/
@[ext]
structure TrigConfig where
  trigDelay : BitVec 32
  minPreTrig : BitVec 32
  deriving DecidableEq, Repr

inductive Vd80Field
  | clock
  | clockDivideMode
  | clockDivisor
  | clockEdge
  | clockTermination
  | trigger
  | triggerEdge
  | triggerTermination
  | postsamples
  | triggerConfig
  deriving DecidableEq, Repr

def Vd80Field.Arg : Vd80Field → Type
  | .triggerConfig => TrigConfig
  | _ => BitVec 32

/-! ### The calls of the driver -/

def Vd80Regs.setreg (s : Vd80Regs) (r : Vd80Reg) (v : BitVec 32) : Vd80Regs := update s r v

/-- A call that sets a field to one of two codes; it clears the bits of `mask` and then those of
`clear`. -/
def Vd80Regs.setCode (s : Vd80Regs) (r : Vd80Reg) (mask clear ireg : BitVec 32) : Vd80Regs :=
  let tval := s r &&& ~~~mask
  let tval := tval &&& ~~~clear
  s.setreg r (tval ||| ireg)

def Vd80Regs.setClock (s : Vd80Regs) (ival : BitVec 32) : Vd80Regs :=
  s.setCode .ccr clksourceMask clksourceExt
    (if ival = sourceExternal then clksourceExt else clksourceInt)

def Vd80Regs.setClockDivideMode (s : Vd80Regs) (ival : BitVec 32) : Vd80Regs :=
  s.setCode .ccr clkdivmodeMask clkdivmodeSubsample
    (if ival = divideModeSubsample then clkdivmodeSubsample else clkdivmodeDivide)

def Vd80Regs.setClockDivisor (s : Vd80Regs) (ival : BitVec 32) : Vd80Regs :=
  s.setreg .ccr ((s .ccr &&& ~~~clkdivMask) ||| ((ival <<< clkdivShift) &&& clkdivMask))

def Vd80Regs.setClockEdge (s : Vd80Regs) (ival : BitVec 32) : Vd80Regs :=
  s.setCode .ccr clkedgeMask clkedgeFalling
    (if ival = edgeFalling then clkedgeFalling else clkedgeRising)

def Vd80Regs.setClockTermination (s : Vd80Regs) (ival : BitVec 32) : Vd80Regs :=
  s.setCode .ccr clktermMask clkterm50ohm
    (if ival = termination50ohm then clkterm50ohm else clktermNone)

def Vd80Regs.setTrigger (s : Vd80Regs) (ival : BitVec 32) : Vd80Regs :=
  s.setCode .tcr1 trigsourceMask trigsourceMask
    (if ival = sourceInternal then trigsourceInt else trigsourceExt)

def Vd80Regs.setTriggerEdge (s : Vd80Regs) (ival : BitVec 32) : Vd80Regs :=
  s.setCode .tcr1 trigedgeMask trigedgeFalling
    (if ival = edgeFalling then trigedgeFalling else trigedgeRising)

def Vd80Regs.setTriggerTermination (s : Vd80Regs) (ival : BitVec 32) : Vd80Regs :=
  s.setCode .tcr1 trigTermMask trigTerm50ohm
    (if ival = termination50ohm then trigTerm50ohm else trigTermNone)

def Vd80Regs.setPostsamples (s : Vd80Regs) (ival : BitVec 32) : Vd80Regs :=
  let tval := s .ptcr ||| pscntclronstart
  let s := s.setreg .ptcr (tval &&& ~~~(pscntclkonsmpl ||| psregclronread))
  s.setreg .tcr2 (if ival ≠ 0 then (ival - 1) / 32 else 0)

/-- The delay has a register of its own, and a bit that says whether it is used. -/
def Vd80Regs.setTrigDelay (s : Vd80Regs) (delay : BitVec 32) : Vd80Regs :=
  if delay ≠ 0 then (s.setreg .tcr1 (s .tcr1 ||| trigoutDelay)).setreg .tcr3 delay
  else (s.setreg .tcr1 (s .tcr1 &&& ~~~trigoutDelay)).setreg .tcr3 0

def Vd80Regs.setMinPreTrig (s : Vd80Regs) (min : BitVec 32) : Vd80Regs :=
  let tval := s .ptcr &&& ~~~presamplesminMask
  let tval :=
    if min ≠ 0 then tval ||| (((min / 32) <<< presamplesminShift) &&& presamplesminMask) else tval
  let tval := tval ||| pscntclronstart
  s.setreg .ptcr (tval &&& ~~~(pscntclkonsmpl ||| psregclronread))

def Vd80Regs.setTriggerConfig (s : Vd80Regs) (tcon : TrigConfig) : Vd80Regs :=
  (s.setTrigDelay tcon.trigDelay).setMinPreTrig tcon.minPreTrig

/-- A `GET` that decodes a field by a table of codes. -/
def decode (tval : BitVec 32) (codes : List (BitVec 32 × BitVec 32)) (other : BitVec 32) :
    BitVec 32 :=
  match codes with
  | [] => other
  | (code, ival) :: codes => if tval = code then ival else decode tval codes other

def Vd80Regs.getClock (s : Vd80Regs) : BitVec 32 :=
  decode (s .ccr &&& clksourceMask)
    [(clksourceInt, sourceInternal), (clksourceExt, sourceExternal)] sources

def Vd80Regs.getClockDivideMode (s : Vd80Regs) : BitVec 32 :=
  decode (s .ccr &&& clkdivmodeMask)
    [(clkdivmodeDivide, divideModeDivide), (clkdivmodeSubsample, divideModeSubsample)] divideModes

def Vd80Regs.getClockDivisor (s : Vd80Regs) : BitVec 32 := (s .ccr &&& clkdivMask) >>> clkdivShift

def Vd80Regs.getClockEdge (s : Vd80Regs) : BitVec 32 :=
  decode (s .ccr &&& clkedgeFalling)
    [(clkedgeRising, edgeRising), (clkedgeFalling, edgeFalling)] edges

def Vd80Regs.getClockTermination (s : Vd80Regs) : BitVec 32 :=
  decode (s .ccr &&& clktermMask)
    [(clktermNone, terminationNone), (clkterm50ohm, termination50ohm)] terminations

def Vd80Regs.getTrigger (s : Vd80Regs) : BitVec 32 :=
  decode (s .tcr1 &&& trigsourceMask)
    [(trigsourceInt, sourceInternal), (trigsourceExt, sourceExternal),
      (trigsourceAnalog, sourceInternal)] sources

def Vd80Regs.getTriggerEdge (s : Vd80Regs) : BitVec 32 :=
  decode (s .tcr1 &&& trigedgeMask)
    [(trigedgeRising, edgeRising), (trigedgeFalling, edgeFalling)] edges

def Vd80Regs.getTriggerTermination (s : Vd80Regs) : BitVec 32 :=
  decode (s .tcr1 &&& trigTermMask)
    [(trigTermNone, terminationNone), (trigTerm50ohm, termination50ohm)] terminations

def Vd80Regs.getPostsamples (s : Vd80Regs) : BitVec 32 := (s .tcr2 + 1) * 32

def Vd80Regs.getTriggerConfig (s : Vd80Regs) : TrigConfig where
  trigDelay := if s .tcr1 &&& trigoutDelay ≠ 0 then s .tcr3 else 0
  minPreTrig := ((s .ptcr &&& presamplesminMask) >>> presamplesminShift) * 32

/-- `__vd80_ioctl` for the `SET` calls. -/
def Vd80Regs.set (s : Vd80Regs) : (f : Vd80Field) → f.Arg → Vd80Regs
  | .clock, v => s.setClock v
  | .clockDivideMode, v => s.setClockDivideMode v
  | .clockDivisor, v => s.setClockDivisor v
  | .clockEdge, v => s.setClockEdge v
  | .clockTermination, v => s.setClockTermination v
  | .trigger, v => s.setTrigger v
  | .triggerEdge, v => s.setTriggerEdge v
  | .triggerTermination, v => s.setTriggerTermination v
  | .postsamples, v => s.setPostsamples v
  | .triggerConfig, tcon => s.setTriggerConfig tcon

/-- `__vd80_ioctl` for the `GET` calls. -/
def Vd80Regs.get (s : Vd80Regs) : (f : Vd80Field) → f.Arg
  | .clock => s.getClock
  | .clockDivideMode => s.getClockDivideMode
  | .clockDivisor => s.getClockDivisor
  | .clockEdge => s.getClockEdge
  | .clockTermination => s.getClockTermination
  | .trigger => s.getTrigger
  | .triggerEdge => s.getTriggerEdge
  | .triggerTermination => s.getTriggerTermination
  | .postsamples => s.getPostsamples
  | .triggerConfig => s.getTriggerConfig

/-- A sequence of `SET` calls. -/
def Vd80Regs.run (s : Vd80Regs) (calls : List (Σ f : Vd80Field, f.Arg)) : Vd80Regs :=
  calls.foldl (fun s c => s.set c.1 c.2) s

/-- The values that a field can have. -/
def Vd80Field.InRange : (f : Vd80Field) → f.Arg → Prop
  | .clock, v => v = sourceInternal ∨ v = sourceExternal
  | .clockDivideMode, v => v = divideModeDivide ∨ v = divideModeSubsample
  | .clockDivisor, v => BitVec.toNat v < 2 ^ 16
  | .clockEdge, v => v = edgeRising ∨ v = edgeFalling
  | .clockTermination, v => v = terminationNone ∨ v = termination50ohm
  | .trigger, v => v = sourceInternal ∨ v = sourceExternal
  | .triggerEdge, v => v = edgeRising ∨ v = edgeFalling
  | .triggerTermination, v => v = terminationNone ∨ v = termination50ohm
  | .postsamples, v => BitVec.toNat v ≤ (postsamplesMask.toNat + 1) * 32
  | .triggerConfig, _ => True

/-- What a `GET` returns after a `SET`: post samples go up to a multiple of 32 which is not 0, pre
samples down to one. -/
def Vd80Field.readBack : (f : Vd80Field) → f.Arg → f.Arg
  | .postsamples, v => BitVec.ofNat 32 (max 32 ((BitVec.toNat v + 31) / 32 * 32))
  | .triggerConfig, tcon =>
    { tcon with minPreTrig := BitVec.ofNat 32 (tcon.minPreTrig.toNat / 32 * 32) }
  | _, v => v

/-! ### What a call looks at, and what it changes -/

/-- The bits that the `GET` of a field looks at. -/
def Vd80Field.bits : Vd80Field → Vd80Reg → BitVec 32
  | .clock, .ccr => clksourceMask
  | .clockDivideMode, .ccr => clkdivmodeMask
  | .clockDivisor, .ccr => clkdivMask
  | .clockEdge, .ccr => clkedgeMask
  | .clockTermination, .ccr => clktermMask
  | .trigger, .tcr1 => trigsourceMask
  | .triggerEdge, .tcr1 => trigedgeMask
  | .triggerTermination, .tcr1 => trigTermMask
  | .postsamples, .tcr2 => BitVec.allOnes 32
  | .triggerConfig, .tcr1 => trigoutDelay
  | .triggerConfig, .tcr3 => BitVec.allOnes 32
  | .triggerConfig, .ptcr => presamplesminMask
  | _, _ => 0

/-- The bits of `PTCR` that tell how the hardware counts. -/
def pscntMask : BitVec 32 := pscntclkonsmpl ||| psregclronread ||| pscntclronstart

/-- The bits that the `SET` of a field may change. -/
def Vd80Field.writes (f : Vd80Field) (r : Vd80Reg) : BitVec 32 :=
  match f, r with
  | .postsamples, .ptcr => pscntMask
  | .triggerConfig, .ptcr => BitVec.allOnes 32
  | _, _ => f.bits r

theorem Vd80Field.writes_and_bits {f g : Vd80Field} (h : f ≠ g) (r : Vd80Reg) :
    f.writes r &&& g.bits r = 0 := by
  revert h
  cases f <;> cases g <;> first
    | exact fun h => absurd rfl h
    | (cases r <;> exact fun _ => rfl)

theorem Vd80Regs.get_congr {s t : Vd80Regs} {f : Vd80Field} (h : AgreeOn f.bits s t) :
    s.get f = t.get f := by
  cases f with
  | clock =>
    have hccr : s .ccr &&& clksourceMask = t .ccr &&& clksourceMask := h .ccr
    show s.getClock = t.getClock
    simp only [Vd80Regs.getClock, hccr]
  | clockDivideMode =>
    have hccr : s .ccr &&& clkdivmodeMask = t .ccr &&& clkdivmodeMask := h .ccr
    show s.getClockDivideMode = t.getClockDivideMode
    simp only [Vd80Regs.getClockDivideMode, hccr]
  | clockDivisor =>
    have hccr : s .ccr &&& clkdivMask = t .ccr &&& clkdivMask := h .ccr
    show s.getClockDivisor = t.getClockDivisor
    simp only [Vd80Regs.getClockDivisor, hccr]
  | clockEdge =>
    have hccr : s .ccr &&& clkedgeFalling = t .ccr &&& clkedgeFalling := h .ccr
    show s.getClockEdge = t.getClockEdge
    simp only [Vd80Regs.getClockEdge, hccr]
  | clockTermination =>
    have hccr : s .ccr &&& clktermMask = t .ccr &&& clktermMask := h .ccr
    show s.getClockTermination = t.getClockTermination
    simp only [Vd80Regs.getClockTermination, hccr]
  | trigger =>
    have htcr : s .tcr1 &&& trigsourceMask = t .tcr1 &&& trigsourceMask := h .tcr1
    show s.getTrigger = t.getTrigger
    simp only [Vd80Regs.getTrigger, htcr]
  | triggerEdge =>
    have htcr : s .tcr1 &&& trigedgeMask = t .tcr1 &&& trigedgeMask := h .tcr1
    show s.getTriggerEdge = t.getTriggerEdge
    simp only [Vd80Regs.getTriggerEdge, htcr]
  | triggerTermination =>
    have htcr : s .tcr1 &&& trigTermMask = t .tcr1 &&& trigTermMask := h .tcr1
    show s.getTriggerTermination = t.getTriggerTermination
    simp only [Vd80Regs.getTriggerTermination, htcr]
  | postsamples =>
    have htcr : s .tcr2 &&& BitVec.allOnes 32 = t .tcr2 &&& BitVec.allOnes 32 := h .tcr2
    rw [BitVec.and_allOnes, BitVec.and_allOnes] at htcr
    show s.getPostsamples = t.getPostsamples
    simp only [Vd80Regs.getPostsamples, htcr]
  | triggerConfig =>
    have hdelay : s .tcr1 &&& trigoutDelay = t .tcr1 &&& trigoutDelay := h .tcr1
    have htcr : s .tcr3 &&& BitVec.allOnes 32 = t .tcr3 &&& BitVec.allOnes 32 := h .tcr3
    have hptcr : s .ptcr &&& presamplesminMask = t .ptcr &&& presamplesminMask := h .ptcr
    rw [BitVec.and_allOnes, BitVec.and_allOnes] at htcr
    show s.getTriggerConfig = t.getTriggerConfig
    simp only [Vd80Regs.getTriggerConfig, hdelay, htcr, hptcr]

/-! ### The two codes of a field -/

theorem Vd80Regs.setCode_eq (s : Vd80Regs) (r : Vd80Reg) {mask clear ireg : BitVec 32}
    (hclear : ~~~mask &&& ~~~clear = ~~~mask) (hireg : ireg &&& mask = ireg) :
    s.setCode r mask clear ireg = s.setreg r (put (s r) mask ireg) := by
  show s.setreg r (((s r &&& ~~~mask) &&& ~~~clear) ||| ireg) =
    s.setreg r ((s r &&& ~~~mask) ||| (ireg &&& mask))
  rw [BitVec.and_assoc, hclear, hireg]

theorem Vd80Regs.setCode_agree (s : Vd80Regs) {r : Vd80Reg} {mask clear ireg : BitVec 32}
    (hclear : ~~~mask &&& ~~~clear = ~~~mask) (hireg : ireg &&& mask = ireg)
    {n : Vd80Reg → BitVec 32} (hn : mask &&& n r = 0) :
    AgreeOn n (s.setCode r mask clear ireg) s := by
  rw [s.setCode_eq r hclear hireg]
  exact (AgreeOn.refl n s).update (put_and_of_disjoint (s r) ireg hn)

theorem Vd80Regs.setCode_and (s : Vd80Regs) {r : Vd80Reg} {mask clear ireg : BitVec 32}
    (hclear : ~~~mask &&& ~~~clear = ~~~mask) (hireg : ireg &&& mask = ireg) :
    s.setCode r mask clear ireg r &&& mask = ireg := by
  rw [s.setCode_eq r hclear hireg]
  unfold Vd80Regs.setreg
  rw [update_self, put_and_self, hireg]

/-! ### The other fields -/

theorem Vd80Regs.setTrigDelay_agree (s : Vd80Regs) (delay : BitVec 32)
    {n : Vd80Reg → BitVec 32} (htcr1 : trigoutDelay &&& n .tcr1 = 0) 
    (htcr3 : BitVec.allOnes 32 &&& n .tcr3 = 0) :
    AgreeOn n (s.setTrigDelay delay) s := by
  unfold Vd80Regs.setTrigDelay
  split
  · exact ((AgreeOn.refl n s).update (or_and_of_disjoint _ htcr1)).update (and_eq_of_allOnes htcr3 _ _)
  · exact ((AgreeOn.refl n s).update (clear_and_of_disjoint _ htcr1)).update (and_eq_of_allOnes htcr3 _ _)

theorem pscnt_and (r : BitVec 32) {n : BitVec 32} (h : pscntMask &&& n = 0) :
    (r ||| pscntclronstart) &&& ~~~(pscntclkonsmpl ||| psregclronread) &&& n = r &&& n := by
  have hset : pscntclronstart &&& n = 0 := by
    have hsub : pscntclronstart &&& pscntMask = pscntclronstart := rfl
    rw [← hsub, BitVec.and_assoc, h]
    simp
  have hclear : (pscntclkonsmpl ||| psregclronread) &&& n = 0 := by
    have hsub : (pscntclkonsmpl ||| psregclronread) &&& pscntMask =
      pscntclkonsmpl ||| psregclronread := rfl
    rw [← hsub, BitVec.and_assoc, h]
    simp
  rw [clear_and_of_disjoint _ hclear, or_and_of_disjoint _ hset]

/-- What `setMinPreTrig` puts into its field. -/
def preSamples (min : BitVec 32) : BitVec 32 := (min / 32) <<< presamplesminShift

theorem Vd80Regs.setMinPreTrig_eq (s : Vd80Regs) (min : BitVec 32) :
    s.setMinPreTrig min = s.setreg .ptcr ((put (s .ptcr) presamplesminMask (preSamples min) |||
      pscntclronstart) &&& ~~~(pscntclkonsmpl ||| psregclronread)) := by
  unfold Vd80Regs.setMinPreTrig put preSamples
  by_cases hmin : min = 0
  · subst hmin
    simp
  · simp only [ne_eq, hmin, not_false_eq_true, if_true]

/-! ### All calls -/

theorem Vd80Regs.set_agree (s : Vd80Regs) {f : Vd80Field} (v : f.Arg) {n : Vd80Reg → BitVec 32}
    (hn : ∀ r, f.writes r &&& n r = 0) : AgreeOn n (s.set f v) s := by
  cases f with
  | clock => exact s.setCode_agree rfl (by split <;> rfl) (hn .ccr)
  | clockDivideMode => exact s.setCode_agree rfl (by split <;> rfl) (hn .ccr)
  | clockDivisor =>
    have hput : clkdivMask &&& n .ccr = 0 := hn .ccr
    exact (AgreeOn.refl n s).update (put_and_of_disjoint _ _ hput)
  | clockEdge => exact s.setCode_agree rfl (by split <;> rfl) (hn .ccr)
  | clockTermination => exact s.setCode_agree rfl (by split <;> rfl) (hn .ccr)
  | trigger => exact s.setCode_agree rfl (by split <;> rfl) (hn .tcr1)
  | triggerEdge => exact s.setCode_agree rfl (by split <;> rfl) (hn .tcr1)
  | triggerTermination => exact s.setCode_agree rfl (by split <;> rfl) (hn .tcr1)
  | postsamples =>
    have hpscnt : pscntMask &&& n .ptcr = 0 := hn .ptcr
    exact ((AgreeOn.refl n s).update (pscnt_and _ hpscnt)).update
      (and_eq_of_allOnes (hn .tcr2) _ _)
  | triggerConfig =>
    exact ((AgreeOn.refl n _).update (and_eq_of_allOnes (hn .ptcr) _ _)).trans
      (s.setTrigDelay_agree _ (hn .tcr1) (hn .tcr3))

theorem Vd80Regs.getClockDivisor_set (s : Vd80Regs) {v : BitVec 32} (hv : v.toNat < 2 ^ 16) :
    (s.setClockDivisor v).getClockDivisor = v := by
  have hmask : clkdivMask = BitVec.allOnes 32 <<< clkdivShift := rfl
  show (put (s .ccr) clkdivMask (v <<< clkdivShift) &&& clkdivMask) >>> clkdivShift = v
  rw [put_and_self, hmask, shiftLeft_and_allOnes]
  refine shiftLeft_ushiftRight_of_lt ?_
  unfold clkdivShift
  omega

theorem Vd80Regs.getPostsamples_set (s : Vd80Regs) {v : BitVec 32}
    (hv : v.toNat ≤ (postsamplesMask.toNat + 1) * 32) :
    (s.setPostsamples v).getPostsamples =
      BitVec.ofNat 32 (max 32 ((v.toNat + 31) / 32 * 32)) := by
  have hmax : (postsamplesMask.toNat + 1) * 32 = 2 ^ 24 := rfl
  show ((if v ≠ 0 then (v - 1) / 32 else 0) + 1) * 32 = _
  by_cases hzero : v = 0
  · subst hzero
    rfl
  · have hpos : 0 < v.toNat := Nat.pos_of_ne_zero fun h => hzero (BitVec.eq_of_toNat_eq h)
    have hone : (1 : BitVec 32) ≤ v := hpos
    have hsub : (v - 1).toNat = v.toNat - 1 := by
      rw [BitVec.toNat_sub_of_le hone]
      rfl
    have hblocks : ((v - 1) / 32 : BitVec 32).toNat = (v.toNat - 1) / 32 := by
      rw [BitVec.toNat_udiv, hsub]
      rfl
    rw [if_pos hzero]
    apply BitVec.eq_of_toNat_eq
    rw [BitVec.toNat_mul, BitVec.toNat_add, hblocks, BitVec.toNat_ofNat]
    show ((v.toNat - 1) / 32 + 1) % 2 ^ 32 * 32 % 2 ^ 32 = _
    omega

theorem Vd80Regs.getTrigDelay_set (s : Vd80Regs) (delay : BitVec 32) :
    (if (s.setTrigDelay delay) .tcr1 &&& trigoutDelay ≠ 0 then (s.setTrigDelay delay) .tcr3
      else 0) = delay := by
  unfold Vd80Regs.setTrigDelay
  by_cases hzero : delay = 0
  · have hbit : (s .tcr1 &&& ~~~trigoutDelay) &&& trigoutDelay = 0 := by
      rw [BitVec.and_assoc, BitVec.not_and_self]
      simp
    rw [if_neg (not_not.2 hzero)]
    show (if (s .tcr1 &&& ~~~trigoutDelay) &&& trigoutDelay ≠ 0 then 0 else 0) = delay
    rw [ite_self, hzero]
  · have hbit : (s .tcr1 ||| trigoutDelay) &&& trigoutDelay = trigoutDelay := by
      rw [or_and_self]
    rw [if_pos hzero]
    show (if (s .tcr1 ||| trigoutDelay) &&& trigoutDelay ≠ 0 then delay else 0) = delay
    rw [hbit, if_pos (by decide)]

theorem Vd80Regs.getTriggerConfig_set (s : Vd80Regs) (tcon : TrigConfig) :
    (s.setTriggerConfig tcon).getTriggerConfig =
      { tcon with minPreTrig := BitVec.ofNat 32 (tcon.minPreTrig.toNat / 32 * 32) } := by
  have hmask : presamplesminMask = BitVec.allOnes 32 <<< presamplesminShift := rfl
  have hdisjoint : pscntMask &&& presamplesminMask = 0 := rfl
  apply TrigConfig.ext
  · exact s.getTrigDelay_set tcon.trigDelay
  · have hmin := Vd80Regs.setMinPreTrig_eq (s.setTrigDelay tcon.trigDelay) tcon.minPreTrig
    have hlt : (tcon.minPreTrig / 32).toNat * 2 ^ presamplesminShift < 2 ^ 32 := by
      have hdiv : (tcon.minPreTrig / 32).toNat = tcon.minPreTrig.toNat / 32 := BitVec.toNat_udiv
      have hbound := tcon.minPreTrig.isLt
      unfold presamplesminShift
      omega
    show ((((s.setTrigDelay tcon.trigDelay).setMinPreTrig tcon.minPreTrig) .ptcr &&&
      presamplesminMask) >>> presamplesminShift) * 32 = _
    rw [hmin]
    unfold Vd80Regs.setreg
    rw [update_self, pscnt_and _ hdisjoint, put_and_self, hmask]
    unfold preSamples
    rw [shiftLeft_and_allOnes, shiftLeft_ushiftRight_of_lt hlt]
    apply BitVec.eq_of_toNat_eq
    rw [BitVec.toNat_mul, BitVec.toNat_udiv, BitVec.toNat_ofNat]
    rfl

theorem Vd80Regs.get_set (s : Vd80Regs) {f : Vd80Field} {v : f.Arg} (hv : f.InRange v) :
    (s.set f v).get f = f.readBack v := by
  cases f with
  | clock =>
    show (s.setClock v).getClock = v
    rcases hv with rfl | rfl
    · exact congrArg (decode · _ _) (s.setCode_and (r := .ccr) rfl rfl)
    · exact congrArg (decode · _ _) (s.setCode_and (r := .ccr) rfl rfl)
  | clockDivideMode =>
    show (s.setClockDivideMode v).getClockDivideMode = v
    rcases hv with rfl | rfl
    · exact congrArg (decode · _ _) (s.setCode_and (r := .ccr) rfl rfl)
    · exact congrArg (decode · _ _) (s.setCode_and (r := .ccr) rfl rfl)
  | clockDivisor => exact s.getClockDivisor_set hv
  | clockEdge =>
    show (s.setClockEdge v).getClockEdge = v
    rcases hv with rfl | rfl
    · exact congrArg (decode · _ _) (s.setCode_and (r := .ccr) rfl rfl)
    · exact congrArg (decode · _ _) (s.setCode_and (r := .ccr) rfl rfl)
  | clockTermination =>
    show (s.setClockTermination v).getClockTermination = v
    rcases hv with rfl | rfl
    · exact congrArg (decode · _ _) (s.setCode_and (r := .ccr) rfl rfl)
    · exact congrArg (decode · _ _) (s.setCode_and (r := .ccr) rfl rfl)
  | trigger =>
    show (s.setTrigger v).getTrigger = v
    rcases hv with rfl | rfl
    · exact congrArg (decode · _ _) (s.setCode_and (r := .tcr1) rfl rfl)
    · exact congrArg (decode · _ _) (s.setCode_and (r := .tcr1) rfl rfl)
  | triggerEdge =>
    show (s.setTriggerEdge v).getTriggerEdge = v
    rcases hv with rfl | rfl
    · exact congrArg (decode · _ _) (s.setCode_and (r := .tcr1) rfl rfl)
    · exact congrArg (decode · _ _) (s.setCode_and (r := .tcr1) rfl rfl)
  | triggerTermination =>
    show (s.setTriggerTermination v).getTriggerTermination = v
    rcases hv with rfl | rfl
    · exact congrArg (decode · _ _) (s.setCode_and (r := .tcr1) rfl rfl)
    · exact congrArg (decode · _ _) (s.setCode_and (r := .tcr1) rfl rfl)
  | postsamples => exact s.getPostsamples_set hv
  | triggerConfig => exact s.getTriggerConfig_set v

theorem Vd80Regs.get_set_of_ne (s : Vd80Regs) {f g : Vd80Field} (v : f.Arg) (h : g ≠ f) :
    (s.set f v).get g = s.get g :=
  Vd80Regs.get_congr (s.set_agree v (Vd80Field.writes_and_bits h.symm))

theorem Vd80Regs.get_run_of_not_set (s : Vd80Regs) {calls : List (Σ f : Vd80Field, f.Arg)}
    {g : Vd80Field} (h : ∀ c ∈ calls, c.1 ≠ g) : (s.run calls).get g = s.get g := by
  induction calls generalizing s with
  | nil => rfl
  | cons c calls ih =>
    show ((s.set c.1 c.2).run calls).get g = s.get g
    rw [ih _ fun c' hc' => h c' (List.mem_cons_of_mem _ hc'),
      s.get_set_of_ne _ (h c List.mem_cons_self).symm]

/-- **The round trip.**  After any sequence of `SET` calls a `GET` returns the last value that was
set for its own field, rounded, and no `SET` changes what the `GET` of another field returns. -/
theorem Vd80Regs.get_run (s : Vd80Regs) (before after : List (Σ f : Vd80Field, f.Arg))
    {f : Vd80Field} {v : f.Arg} (hv : f.InRange v) (hlast : ∀ c ∈ after, c.1 ≠ f) :
    (s.run (before ++ ⟨f, v⟩ :: after)).get f = f.readBack v ∧
      ∀ g, g ≠ f → (s.run (before ++ [⟨f, v⟩])).get g = (s.run before).get g := by
  have happend : ∀ calls, s.run (before ++ ⟨f, v⟩ :: calls) =
      ((s.run before).set f v).run calls := fun calls => List.foldl_append ..
  refine ⟨?_, fun g hg => ?_⟩
  · rw [happend, Vd80Regs.get_run_of_not_set _ hlast, Vd80Regs.get_set _ hv]
  · rw [happend]
    exact (s.run before).get_set_of_ne v hg

/-- The registers after power-on. -/
def zeroRegs : Vd80Regs := fun _ => 0

theorem Vd80Regs.get_run_edge :
    (zeroRegs.run ([⟨.clockDivisor, (0x1234 : BitVec 32)⟩] ++ ⟨.clockEdge, edgeFalling⟩ ::
        [⟨.clock, sourceExternal⟩])).get .clockEdge = edgeFalling ∧
      ∀ g, g ≠ .clockEdge →
        (zeroRegs.run ([⟨.clockDivisor, (0x1234 : BitVec 32)⟩] ++
            [⟨.clockEdge, edgeFalling⟩])).get g =
          (zeroRegs.run [⟨.clockDivisor, (0x1234 : BitVec 32)⟩]).get g :=
  zeroRegs.get_run _ _ (Or.inr rfl) (by decide)

/-- The next multiple of 32. -/
def roundUp (v : BitVec 32) : BitVec 32 := BitVec.ofNat 32 ((v.toNat + 31) / 32 * 32)

/-- The least number of pre samples is rounded down, and 0 post samples are read back as 32. -/
theorem Vd80Regs.rounding_broken :
    (∃ tcon, (zeroRegs.run [⟨.triggerConfig, tcon⟩]).get .triggerConfig ≠
        { tcon with minPreTrig := roundUp tcon.minPreTrig }) ∧
      ∃ v : BitVec 32, (zeroRegs.run [⟨.postsamples, v⟩]).get .postsamples ≠ roundUp v := by
  have hpre : (zeroRegs.run [⟨.triggerConfig, ⟨0, 33⟩⟩]).get .triggerConfig =
    (⟨0, 32⟩ : TrigConfig) := rfl
  have hpost : (zeroRegs.run [⟨.postsamples, (0 : BitVec 32)⟩]).get .postsamples =
    (32 : BitVec 32) := rfl
  refine ⟨⟨⟨0, 33⟩, ?_⟩, ⟨0, ?_⟩⟩
  · rw [hpre]
    exact fun h => absurd (congrArg TrigConfig.minPreTrig h) (by decide)
  · have hne : (32 : BitVec 32) ≠ roundUp 0 := by decide
    rw [hpost]
    exact hne

end KernelModules.Vd80
