import KernelModules.Lib.Transition
import Mathlib.Tactic

/-!
# Interrupts and directions of an ICV196 module

The driver keeps the mask of the connected interrupt lines and the mask of the output bytes; the
module has a pattern mask for each of its two ports and a direction register.  A byte of lines that
is connected to interrupts must be an input.

* `Device` is the module with the driver's two masks, `Device.run` a request and `Device.ioctl` a
  call with what may go wrong around it;
* `Device.Coherent` is what the masks and registers agree on, `Device.Refusing` that a call that
  returns an error changes nothing;
* `coherent_of_reachUnder` holds both over every run of `Fitting` calls, and shows that the
  condition is exact at each of them.

A register holds what was written to it last; the commands to the two status registers are kept in
the same way.
-/

namespace KernelModules.Icv196

open Function KernelModules.Lib

/-- The two ports with interrupts. -/
inductive Port
  | a
  | b
  deriving DecidableEq, Repr

/-- The registers of the Z8536 that the driver writes. -/
inductive Reg
  | mic
  | mcc
  | mSpec (p : Port)
  | cSt (p : Port)
  | dPPol (p : Port)
  | dDir (p : Port)
  | sio (p : Port)
  | ptrMsk (p : Port)
  | ptrTr (p : Port)
  | ptrPo (p : Port)
  | itVct (p : Port)
  deriving DecidableEq, Repr

/-- `struct icv196_device_s` and its module: `int_msk`, `out_msk` and the interrupt vector, the
registers of the Z8536, `CSNIT_ICV`, `CSDIR_ICV` and the bytes from `CSGbase_ICV` on. -/
structure Device where
  intMsk : BitVec 32
  outMsk : BitVec 32
  vec : BitVec 8
  reg : Reg → BitVec 8
  csnit : BitVec 8
  csdir : BitVec 16
  group : ℕ → BitVec 8

def Device.setreg (s : Device) (r : Reg) (v : BitVec 8) : Device :=
  { s with reg := update s.reg r v }

def b_MIE : BitVec 8 := 0x80

def coSt_ClIpIus : BitVec 8 := 0x20

def coSt_SeIe : BitVec 8 := 0xC0

/-- `PtrM_Or | Latch_On_Pat_Match`. -/
def ptrM_Or : BitVec 8 := 0x05

/-- `-EBUSY`, `-EISCONN`, `-EPERM`, `-ENOMEM` and `-EACCES`. -/
def ebusy : ℤ := -16
def eisconn : ℤ := -106
def eperm : ℤ := -1
def enomem : ℤ := -12
def eacces : ℤ := -13

/-- The registers that `reset` writes, in order: the chip's own reset, and the values. -/
def resetWrites (vec : BitVec 8) : List (Reg × BitVec 8) :=
  [(.mic, 0x01), (.mic, 0),
   (.mcc, 0x84),
   (.mSpec .a, ptrM_Or), (.mSpec .b, ptrM_Or),
   (.cSt .a, coSt_SeIe), (.cSt .b, coSt_SeIe),
   (.dPPol .a, 0), (.dPPol .b, 0),
   (.dDir .a, 0xFF), (.dDir .b, 0xFF),
   (.sio .a, 0), (.sio .b, 0),
   (.ptrMsk .a, 0), (.ptrTr .a, 0), (.ptrPo .a, 0),
   (.ptrMsk .b, 0), (.ptrTr .b, 0), (.ptrPo .b, 0),
   (.mic, 0), (.itVct .a, vec), (.itVct .b, vec), (.mic, b_MIE)]

/-- `reset`. -/
def Device.reset (s : Device) : Device :=
  let s := { s with csnit := 0xFD, csdir := 0 }
  let s := (resetWrites s.vec).foldl (fun s w => s.setreg w.1 w.2) s
  { s with outMsk := 0 }

/-- The interrupts of some lines of a port. -/
def Device.enable (s : Device) (p : Port) (lines : BitVec 8) : Device :=
  let s := s.setreg (.cSt p) coSt_ClIpIus
  let s := s.setreg (.ptrPo p) (s.reg (.ptrPo p) ||| lines)
  let s := s.setreg (.ptrTr p) (s.reg (.ptrTr p) ||| lines)
  let s := s.setreg (.ptrMsk p) (s.reg (.ptrMsk p) ||| lines)
  s.setreg (.cSt p) coSt_ClIpIus

/-- `ICV196_CONNECT`.  The shift binds tighter than the mask, so both bytes are the low one. -/
def Device.connect (s : Device) (ival : BitVec 32) : ℤ × Device :=
  if s.outMsk &&& 3 ≠ 0 then (ebusy, s)
  else
    let s := { s with intMsk := ival &&& 0xFFFF }
    let br : BitVec 8 := (ival &&& 0x00FF).setWidth 8
    let bl : BitVec 8 := (ival &&& (0xFF00 : BitVec 32) >>> 8).setWidth 8
    let s := s.setreg .mic (s.reg .mic ||| b_MIE)
    let s := if br ≠ 0 then s.enable .a br else s
    (0, if bl ≠ 0 then s.enable .b bl else s)

/-- `ICV196_BYTE_SET_OUTPUT`. -/
def Device.byteSetOutput (s : Device) (ival : BitVec 32) : ℤ × Device :=
  if (s.intMsk &&& 1 ≠ 0 ∧ ival &&& 1 ≠ 0) ∨ (s.intMsk &&& 2 ≠ 0 ∧ ival &&& 2 ≠ 0) then (eisconn, s)
  else (0, { s with outMsk := ival &&& 0xFFF, csdir := (ival &&& 0xFFF).setWidth 16 })

/-- The loop of `ICV196_BYTE_WRITE`, over the bytes it has still to go through. -/
def Device.writeBytes (s : Device) (msk : BitVec 16) (val : ℕ → BitVec 8) :
    List ℕ → ℤ × Device
  | [] => (0, s)
  | i :: is =>
    if msk.getLsbD i = false then s.writeBytes msk val is
    else if s.outMsk.getLsbD i = false then (eperm, s)
    else { s with group := update s.group i (val i) }.writeBytes msk val is

/-- `MAX_BYTES`. -/
def maxBytes : ℕ := 12

/-- `ICV196_BYTE_WRITE`. -/
def Device.byteWrite (s : Device) (msk : BitVec 16) (val : ℕ → BitVec 8) : ℤ × Device :=
  s.writeBytes msk val (List.range' 0 maxBytes)

/-- `ICV196_GET_CONNECT` and `ICV196_BYTE_GET_OUTPUT`. -/
def Device.getConnect (s : Device) : BitVec 32 := s.intMsk
def Device.byteGetOutput (s : Device) : BitVec 32 := s.outMsk

/-- A request with its argument. -/
inductive Request
  | connect (ival : BitVec 32)
  | byteSetOutput (ival : BitVec 32)
  | byteWrite (msk : BitVec 16) (val : ℕ → BitVec 8)
  | reset

def Device.run (s : Device) : Request → ℤ × Device
  | .connect ival => s.connect ival
  | .byteSetOutput ival => s.byteSetOutput ival
  | .byteWrite msk val => s.byteWrite msk val
  | .reset => (0, s.reset)

/-- What goes wrong around a request: the allocation of the argument, its copy from the caller, or
the copy back. -/
inductive Trouble
  | noMemory
  | copyFrom
  | copyTo
  deriving DecidableEq, Repr

/-- `__icv196_ioctl`: what it returns, and the module after it. -/
def Device.ioctl (s : Device) (a : Request × Option Trouble) : ℤ × Device :=
  match a.2 with
  | some .noMemory => (enomem, s)
  | some .copyFrom => (eacces, s)
  | some .copyTo => (if (s.run a.1).1 = 0 then eacces else (s.run a.1).1, (s.run a.1).2)
  | none => s.run a.1

/-- A module after its first reset: any calls in any order. -/
def icvBoard : System Device (Request × Option Trouble) :=
  System.ofFun (fun s => ∃ t : Device, t.intMsk = 0 ∧ s = t.reset) fun s a => some (s.ioctl a).2

/-- The byte of `port` in a mask of lines. -/
def portByte (msk : BitVec 32) : Port → BitVec 8
  | .a => msk.extractLsb' 0 8
  | .b => msk.extractLsb' 8 8

/-- The bit of `port` in a mask of bytes. -/
def portBit (msk : BitVec 32) : Port → Bool
  | .a => msk.getLsbD 0
  | .b => msk.getLsbD 1

/-- The pattern masks are the bytes of the connected lines, the direction register is the mask of
the output bytes, and no byte with a connected line is an output. -/
structure Device.Coherent (s : Device) : Prop where
  mask : ∀ p, s.reg (.ptrMsk p) = portByte s.getConnect p
  dir : s.csdir = s.byteGetOutput.setWidth 16
  input : ∀ p, portByte s.intMsk p ≠ 0 → portBit s.outMsk p = false

/-- A call that returns an error changes nothing. -/
def Device.Refusing (s : Device) (a : Request × Option Trouble) : Prop :=
  (s.ioctl a).1 ≠ 0 → (s.ioctl a).2 = s

/-- A byte or a line of the first two bytes is in use, so that `CONNECT` is refused. -/
def Device.Busy (s : Device) : Prop := s.outMsk &&& 3 ≠ 0

/-- The test of `BYTE_SET_OUTPUT`. -/
def Device.Connected (s : Device) (ival : BitVec 32) : Prop :=
  (s.intMsk &&& 1 ≠ 0 ∧ ival &&& 1 ≠ 0) ∨ (s.intMsk &&& 2 ≠ 0 ∧ ival &&& 2 ≠ 0)

instance (s : Device) : Decidable s.Busy := inferInstanceAs (Decidable (_ ≠ _))

instance (s : Device) (ival : BitVec 32) : Decidable (s.Connected ival) :=
  inferInstanceAs (Decidable (_ ∨ _))

/-- Byte `i` is named, and may not be written. -/
def Device.Forbidden (s : Device) (msk : BitVec 16) (i : ℕ) : Prop :=
  msk.getLsbD i = true ∧ s.outMsk.getLsbD i = false

/-- Byte `i` is named, and so far no byte was that may not be written. -/
def Device.Written (s : Device) (msk : BitVec 16) (k i : ℕ) : Prop :=
  msk.getLsbD i = true ∧ ∀ j, k ≤ j → j ≤ i → msk.getLsbD j = true → s.outMsk.getLsbD j = true

/-- Every byte that the loop comes to has its new value already. -/
def Device.Same (s : Device) (msk : BitVec 16) (val : ℕ → BitVec 8) : Prop :=
  ∀ i < maxBytes, s.Written msk 0 i → s.group i = val i

/-- A request that is carried out leaves the masks and registers in step: `CONNECT` drops no line,
and its two bytes differ at most in lines that are connected already; `BYTE_SET_OUTPUT` sets no byte
as output that has a connected line; a reset comes with no line connected.  A `BYTE_WRITE` that
names a forbidden byte changes no byte before it. -/
def Device.InStep (s : Device) : Request → Prop
  | .connect ival => s.Busy ∨
      ∀ p, portByte s.intMsk p ||| portByte ival .a = portByte ival p
  | .byteSetOutput ival => s.Connected ival ∨
      ∀ p, portByte s.intMsk p ≠ 0 → portBit ival p = false
  | .byteWrite msk val =>
      (∃ i < maxBytes, s.Forbidden msk i) → s.Same msk val
  | .reset => s.intMsk = 0

/-- A request that is carried out changes nothing. -/
def Device.Idle (s : Device) : Request → Prop
  | .connect ival => s.Busy ∨
      (ival &&& 0xFFFF = s.intMsk ∧
        portByte s.intMsk .b ||| portByte s.intMsk .a = portByte s.intMsk .b)
  | .byteSetOutput ival => s.Connected ival ∨ ival &&& 0xFFF = s.outMsk
  | .byteWrite msk val => s.Same msk val
  | .reset => s.intMsk = 0 ∧ s.outMsk = 0

/-- A call that is in step, and that changes nothing when its copy back fails. -/
def Fitting (s : Device) (a : Request × Option Trouble) : Prop :=
  match a.2 with
  | some .noMemory => True
  | some .copyFrom => True
  | some .copyTo => s.Idle a.1
  | none => s.InStep a.1

/-! ### The registers -/

/-- The registers after a reset and the connection of the lines `m`. -/
def regsOf (vec : BitVec 8) (m : Port → BitVec 8) : Reg → BitVec 8
  | .mic => b_MIE
  | .mcc => 0x84
  | .mSpec _ => ptrM_Or
  | .cSt p => if m p = 0 then coSt_SeIe else coSt_ClIpIus
  | .dPPol _ => 0
  | .dDir _ => 0xFF
  | .sio _ => 0
  | .ptrMsk p => m p
  | .ptrTr p => m p
  | .ptrPo p => m p
  | .itVct _ => vec

theorem setregs_eq (s : Device) (ws : List (Reg × BitVec 8)) :
    ws.foldl (fun s w => s.setreg w.1 w.2) s =
      { s with reg := ws.foldl (fun reg w => update reg w.1 w.2) s.reg } := by
  induction ws generalizing s with
  | nil => rfl
  | cons w ws ih => exact ih (s.setreg w.1 w.2)

theorem resetWrites_eq (reg : Reg → BitVec 8) (vec : BitVec 8) :
    (resetWrites vec).foldl (fun reg w => update reg w.1 w.2) reg = regsOf vec fun _ => 0 := by
  funext r
  rcases r with _ | _ | p | p | p | p | p | p | p | p | p
  all_goals first | rfl | (cases p <;> rfl)

theorem reset_eq (s : Device) :
    s.reset =
      { s with csnit := 0xFD, csdir := 0, outMsk := 0, reg := regsOf s.vec fun _ => 0 } := by
  unfold Device.reset
  simp only [setregs_eq, resetWrites_eq]

theorem enable_eq {s : Device} {m : Port → BitVec 8} (hreg : s.reg = regsOf s.vec m) (p : Port)
    (lines : BitVec 8) :
    (if lines ≠ 0 then s.enable p lines else s) =
      { s with reg := regsOf s.vec (update m p (m p ||| lines)) } := by
  by_cases hlines : lines = 0
  · subst hlines
    have hsame : m p ||| 0 = m p := BitVec.or_zero
    rw [if_neg (not_not.mpr rfl), hsame, update_eq_self, ← hreg]
  · have hne : m p ||| lines ≠ 0 := fun h => hlines (BitVec.or_eq_zero_iff.mp h).2
    have hregs : (s.enable p lines).reg = regsOf s.vec (update m p (m p ||| lines)) := by
      funext r
      have hr : s.reg r = regsOf s.vec m r := congrFun hreg r
      have hpo : s.reg (.ptrPo p) = m p := congrFun hreg _
      have htr : s.reg (.ptrTr p) = m p := congrFun hreg _
      have hmsk : s.reg (.ptrMsk p) = m p := congrFun hreg _
      rcases r with _ | _ | q | q | q | q | q | q | q | q | q
      all_goals
        simp only [Device.enable, Device.setreg, update_apply, reduceCtorEq, if_false, hr, regsOf,
          Reg.cSt.injEq, Reg.ptrPo.injEq, Reg.ptrTr.injEq, Reg.ptrMsk.injEq, hpo, htr, hmsk]
      rcases eq_or_ne q p with rfl | hq
      · rw [if_pos rfl, if_pos rfl, if_neg hne]
      · rw [if_neg hq, if_neg hq, if_neg hq]
    rw [if_pos hlines, ← hregs]
    rfl

/-! ### The requests -/

theorem portByte_and (v : BitVec 32) (p : Port) : portByte (v &&& 0xFFFF) p = portByte v p := by
  cases p <;> ext i hi <;> simp only [portByte, BitVec.getElem_extractLsb', BitVec.getLsbD_and]
  all_goals
    interval_cases i <;> simp

theorem lowBytes (v : BitVec 32) :
    (v &&& 0x00FF).setWidth 8 = portByte v .a ∧
      (v &&& (0xFF00 : BitVec 32) >>> 8).setWidth 8 = portByte v .a := by
  have hlow : (v &&& 0x00FF).setWidth 8 = portByte v .a := by
    ext i hi
    simp only [portByte, BitVec.getElem_extractLsb', BitVec.getElem_setWidth, BitVec.getLsbD_and]
    interval_cases i <;> simp
  exact ⟨hlow, hlow⟩

/-- What the masks and registers of a module look like between two calls, and no more lines or bytes
are set than there are. -/
structure Device.Settled (s : Device) : Prop where
  coherent : s.Coherent
  regs : s.reg = regsOf s.vec (portByte s.intMsk)
  csnit : s.csnit = 0xFD
  lines : s.intMsk &&& 0xFFFF = s.intMsk
  bytes : s.outMsk &&& 0xFFF = s.outMsk

theorem connect_eq {s : Device} {m : Port → BitVec 8} (hreg : s.reg = regsOf s.vec m)
    (hfree : ¬ s.Busy) (ival : BitVec 32) :
    s.connect ival = (0, { s with
      intMsk := ival &&& 0xFFFF
      reg := regsOf s.vec fun p => m p ||| portByte ival .a }) := by
  have hmic : s.reg .mic ||| b_MIE = s.reg .mic := by
    have hmie : s.reg .mic = b_MIE := congrFun hreg _
    rw [hmie, BitVec.or_self]
  have hporta := @enable_eq { s with intMsk := ival &&& 0xFFFF } m hreg .a (portByte ival .a)
  have hportb := @enable_eq { s with
      intMsk := ival &&& 0xFFFF
      reg := regsOf s.vec (update m .a (m .a ||| portByte ival .a)) }
    (update m .a (m .a ||| portByte ival .a)) rfl .b (portByte ival .a)
  have hboth : update (update m .a (m .a ||| portByte ival .a)) .b
      (update m .a (m .a ||| portByte ival .a) .b ||| portByte ival .a) =
        fun p => m p ||| portByte ival .a := by
    funext p
    cases p <;> rfl
  have hset : ({ s with intMsk := ival &&& 0xFFFF } : Device).setreg .mic (s.reg .mic ||| b_MIE) =
      { s with intMsk := ival &&& 0xFFFF } := by
    rw [hmic, Device.setreg, update_eq_self]
  rw [hboth] at hportb
  have hzero : ¬ (s.outMsk &&& 3 ≠ 0) := hfree
  unfold Device.connect
  rw [if_neg hzero]
  simp only [(lowBytes ival).1, (lowBytes ival).2, hset, hporta, hportb]

theorem written_tail {s : Device} {msk : BitVec 16} {k n i : ℕ}
    (hpass : msk.getLsbD k = true → s.outMsk.getLsbD k = true) (hi : msk.getLsbD k = true → i ≠ k) :
    (k ≤ i ∧ i < k + (n + 1) ∧ s.Written msk k i) ↔
      (k + 1 ≤ i ∧ i < k + 1 + n ∧ s.Written msk (k + 1) i) := by
  constructor
  · rintro ⟨hk, hlt, hmsk, hall⟩
    have hne : i ≠ k := by
      rintro rfl
      exact hi hmsk rfl
    exact ⟨by omega, by omega, hmsk, fun j hj => hall j (by omega)⟩
  · rintro ⟨hk, hlt, hmsk, hall⟩
    refine ⟨by omega, by omega, hmsk, fun j hj hji hjm => ?_⟩
    rcases eq_or_ne j k with rfl | hne
    · exact hpass hjm
    · exact hall j (by omega) hji hjm

theorem forbidden_tail {s : Device} {msk : BitVec 16} {k n : ℕ}
    (hpass : msk.getLsbD k = true → s.outMsk.getLsbD k = true) :
    (∃ i, k + 1 ≤ i ∧ i < k + 1 + n ∧ s.Forbidden msk i) ↔
      ∃ i, k ≤ i ∧ i < k + (n + 1) ∧ s.Forbidden msk i := by
  constructor
  · rintro ⟨i, hk, hlt, hbad⟩
    exact ⟨i, by omega, by omega, hbad⟩
  · rintro ⟨i, hk, hlt, hbad⟩
    have hne : i ≠ k := by
      rintro rfl
      exact absurd ((hpass hbad.1).symm.trans hbad.2) (by simp)
    exact ⟨i, by omega, by omega, hbad⟩

theorem writeBytes_eq (s : Device) (msk : BitVec 16) (val : ℕ → BitVec 8) (k n : ℕ) :
    ((s.writeBytes msk val (List.range' k n)).1 ≠ 0 ↔ ∃ i, k ≤ i ∧ i < k + n ∧ s.Forbidden msk i) ∧
    ∃ g, (s.writeBytes msk val (List.range' k n)).2 = { s with group := g } ∧
      ∀ i, (k ≤ i ∧ i < k + n ∧ s.Written msk k i → g i = val i) ∧
        (¬ (k ≤ i ∧ i < k + n ∧ s.Written msk k i) → g i = s.group i) := by
  induction n generalizing k s with
  | zero =>
    refine ⟨iff_of_false (not_not.mpr rfl) ?_, s.group, rfl, fun i => ⟨?_, fun _ => rfl⟩⟩
    · rintro ⟨i, hk, hlt, -⟩
      omega
    · rintro ⟨hk, hlt, -⟩
      omega
  | succ n ih =>
    rw [List.range'_succ, Device.writeBytes]
    by_cases hmsk : msk.getLsbD k = true
    · rw [if_neg (by simp [hmsk])]
      by_cases hperm : s.outMsk.getLsbD k = true
      · -- the byte is written
        rw [if_neg (by simp [hperm])]
        obtain ⟨hcc, g, hg, hval⟩ := ih { s with group := update s.group k (val k) } (k + 1)
        refine ⟨hcc.trans (forbidden_tail fun _ => hperm), g, hg, fun i => ?_⟩
        by_cases hi : i = k
        · subst hi
          have hlast : g i = val i := by
            rw [(hval i).2 (by omega)]
            exact update_self ..
          refine ⟨fun _ => hlast, fun hnot => absurd ⟨le_rfl, by omega, hmsk, ?_⟩ hnot⟩
          intro j hj hji _
          rwa [le_antisymm hji hj]
        · rw [written_tail (fun _ => hperm) fun _ => hi]
          obtain ⟨hin, hout⟩ := hval i
          exact ⟨hin, fun hnot => (hout hnot).trans (update_of_ne hi ..)⟩
      · -- the loop ends here
        have hout : s.outMsk.getLsbD k = false := by simpa using hperm
        have heperm : eperm ≠ 0 := by decide
        rw [if_pos hout]
        refine ⟨iff_of_true heperm ⟨k, le_rfl, by omega, hmsk, hout⟩, s.group, rfl,
          fun i => ⟨?_, fun _ => rfl⟩⟩
        rintro ⟨hk, -, -, hall⟩
        exact absurd (hall k le_rfl hk hmsk) hperm
    · -- the byte is left out
      rw [if_pos (by simpa using hmsk)]
      obtain ⟨hcc, g, hg, hval⟩ := ih s (k + 1)
      refine ⟨hcc.trans (forbidden_tail fun h => absurd h hmsk), g, hg, fun i => ?_⟩
      rw [written_tail (fun h => absurd h hmsk) fun h => absurd h hmsk]
      exact hval i

theorem byteWrite_fails_iff (s : Device) (msk : BitVec 16) (val : ℕ → BitVec 8) :
    (s.byteWrite msk val).1 ≠ 0 ↔ ∃ i < maxBytes, s.Forbidden msk i := by
  refine (writeBytes_eq s msk val 0 maxBytes).1.trans ⟨?_, ?_⟩
  · rintro ⟨i, -, hlt, hbad⟩
    exact ⟨i, by omega, hbad⟩
  · rintro ⟨i, hlt, hbad⟩
    exact ⟨i, i.zero_le, by omega, hbad⟩

theorem byteWrite_same_iff (s : Device) (msk : BitVec 16) (val : ℕ → BitVec 8) :
    (s.byteWrite msk val).2 = s ↔ s.Same msk val := by
  obtain ⟨-, g, hg, hval⟩ := writeBytes_eq s msk val 0 maxBytes
  have hsame : (s.byteWrite msk val).2 = s ↔ g = s.group := by
    rw [Device.byteWrite, hg]
    exact ⟨fun h => congrArg Device.group h, fun h => by rw [h]⟩
  rw [hsame]
  constructor
  · rintro rfl i hi hw
    exact (hval i).1 ⟨i.zero_le, by omega, hw⟩
  · intro h
    funext i
    by_cases hw : 0 ≤ i ∧ i < 0 + maxBytes ∧ s.Written msk 0 i
    · rw [(hval i).1 hw, h i (by omega) hw.2.2]
    · exact (hval i).2 hw

/-! ### One call -/

theorem Device.portBit_of_free {s : Device} (hfree : ¬ s.Busy) (p : Port) :
    portBit s.outMsk p = false := by
  have hzero : s.outMsk &&& 3 = 0 := not_not.mp hfree
  have hbit : ∀ i < 2, s.outMsk.getLsbD i = false := by
    intro i hi
    have hand : (s.outMsk &&& 3).getLsbD i = false := by
      rw [hzero]
      simp
    rw [BitVec.getLsbD_and] at hand
    interval_cases i <;> simpa using hand
  cases p with
  | a => exact hbit 0 (by omega)
  | b => exact hbit 1 (by omega)

theorem portBit_and (v : BitVec 32) (p : Port) : portBit (v &&& 0xFFF) p = portBit v p := by
  cases p <;> simp [portBit]

theorem eq_zero_of_portByte {v : BitVec 32} (hlines : v &&& 0xFFFF = v)
    (h : ∀ p, portByte v p = 0) : v = 0 := by
  ext i hi
  have hand : (v &&& 0xFFFF).getLsbD i = v.getLsbD i := by rw [hlines]
  have hlow : ∀ j < 8, v.getLsbD j = false := by
    intro j hj
    have hbyte : (portByte v .a).getLsbD j = false := by rw [h]; simp
    simpa [portByte, hj] using hbyte
  have hhigh : ∀ j < 8, v.getLsbD (8 + j) = false := by
    intro j hj
    have hbyte : (portByte v .b).getLsbD j = false := by rw [h]; simp
    simpa [portByte, hj] using hbyte
  have hbit : v.getLsbD i = false := by
    by_cases hi8 : i < 8
    · exact hlow i hi8
    by_cases hi16 : i < 16
    · have hij := hhigh (i - 8) (by omega)
      rwa [Nat.add_sub_cancel' (by omega)] at hij
    · rw [← hand, BitVec.getLsbD_and]
      have hmask : (0xFFFF : BitVec 32).getLsbD i = false := by
        interval_cases i <;> rfl
      rw [hmask, Bool.and_false]
  rw [← BitVec.getLsbD_eq_getElem, hbit]
  exact (BitVec.getElem_zero hi).symm

variable {s : Device}

theorem settled_reset (hint : s.intMsk = 0) : s.reset.Settled := by
  rw [reset_eq]
  have hbyte : portByte s.intMsk = fun _ => 0 := by
    funext p
    rw [hint]
    cases p <;> rfl
  refine ⟨⟨fun p => ?_, rfl, fun p _ => ?_⟩, ?_, rfl, ?_, BitVec.zero_and⟩
  · exact (congrFun hbyte p).symm
  · cases p <;> exact BitVec.getLsbD_zero
  · change regsOf s.vec _ = regsOf s.vec _
    rw [hbyte]
  · change s.intMsk &&& 0xFFFF = s.intMsk
    rw [hint]
    exact BitVec.zero_and

theorem Device.Settled.run_iff (hs : s.Settled) (r : Request) :
    ((s.run r).2.Coherent ∧ ((s.run r).1 ≠ 0 → (s.run r).2 = s)) ↔ s.InStep r := by
  cases r with
  | connect ival =>
    by_cases hbusy : s.Busy
    · have hrun : s.run (.connect ival) = (ebusy, s) := if_pos hbusy
      rw [hrun]
      exact iff_of_true ⟨hs.coherent, fun _ => rfl⟩ (.inl hbusy)
    · have hrun : s.run (.connect ival) = _ := connect_eq hs.regs hbusy ival
      rw [hrun]
      constructor
      · rintro ⟨hcoh, -⟩
        exact .inr fun p => (hcoh.mask p).trans (portByte_and ival p)
      · rintro (h | h)
        · exact absurd h hbusy
        · refine ⟨⟨fun p => (h p).trans (portByte_and ival p).symm, hs.coherent.dir, fun p _ => ?_⟩,
            fun h => absurd rfl h⟩
          exact portBit_of_free hbusy p
  | byteSetOutput ival =>
    by_cases hconn : s.Connected ival
    · have hrun : s.run (.byteSetOutput ival) = (eisconn, s) := if_pos hconn
      rw [hrun]
      exact iff_of_true ⟨hs.coherent, fun _ => rfl⟩ (.inl hconn)
    · have hrun : s.run (.byteSetOutput ival) = _ := if_neg hconn
      rw [hrun]
      constructor
      · rintro ⟨hcoh, -⟩
        exact .inr fun p hp => (portBit_and ival p).symm.trans (hcoh.input p hp)
      · rintro (h | h)
        · exact absurd h hconn
        · exact ⟨⟨hs.coherent.mask, rfl, fun p hp => (portBit_and ival p).trans (h p hp)⟩,
            fun h => absurd rfl h⟩
  | byteWrite msk val =>
    have hcoh : (s.byteWrite msk val).2.Coherent := by
      obtain ⟨-, g, hg, -⟩ := writeBytes_eq s msk val 0 maxBytes
      rw [Device.byteWrite, hg]
      exact ⟨hs.coherent.mask, hs.coherent.dir, hs.coherent.input⟩
    change (s.byteWrite msk val).2.Coherent ∧ _ ↔ (_ → _)
    rw [← byteWrite_fails_iff s msk val, ← byteWrite_same_iff]
    exact ⟨fun h => h.2, fun h => ⟨hcoh, h⟩⟩
  | reset =>
    refine ⟨fun ⟨hcoh, _⟩ => ?_, fun h => ⟨(settled_reset h).coherent, fun h => absurd rfl h⟩⟩
    refine eq_zero_of_portByte hs.lines fun p => ?_
    have hmask := hcoh.mask p
    change s.reset.reg _ = portByte s.reset.intMsk p at hmask
    rw [reset_eq] at hmask
    exact hmask.symm

theorem Device.Settled.run (hs : s.Settled) {r : Request} (h : s.InStep r) :
    (s.run r).2.Settled := by
  have hcoh := ((hs.run_iff r).mpr h).1
  cases r with
  | connect ival =>
    by_cases hbusy : s.Busy
    · have hrun : s.run (.connect ival) = (ebusy, s) := if_pos hbusy
      rw [hrun]
      exact hs
    · have hrun : s.run (.connect ival) = _ := connect_eq hs.regs hbusy ival
      rw [hrun] at hcoh ⊢
      refine ⟨hcoh, congrArg (regsOf s.vec) (funext hcoh.mask), hs.csnit, ?_, hs.bytes⟩
      change ival &&& 0xFFFF &&& 0xFFFF = _
      rw [BitVec.and_assoc, BitVec.and_self]
  | byteSetOutput ival =>
    by_cases hconn : s.Connected ival
    · have hrun : s.run (.byteSetOutput ival) = (eisconn, s) := if_pos hconn
      rw [hrun]
      exact hs
    · have hrun : s.run (.byteSetOutput ival) = _ := if_neg hconn
      rw [hrun] at hcoh ⊢
      refine ⟨hcoh, hs.regs, hs.csnit, hs.lines, ?_⟩
      change ival &&& 0xFFF &&& 0xFFF = _
      rw [BitVec.and_assoc, BitVec.and_self]
  | byteWrite msk val =>
    obtain ⟨-, g, hg, -⟩ := writeBytes_eq s msk val 0 maxBytes
    have hrun : (s.run (.byteWrite msk val)).2 = { s with group := g } := hg
    rw [hrun] at hcoh ⊢
    exact ⟨hcoh, hs.regs, hs.csnit, hs.lines, hs.bytes⟩
  | reset => exact settled_reset h

theorem Device.Settled.run_eq_iff (hs : s.Settled) (r : Request) :
    (s.run r).2 = s ↔ s.Idle r := by
  cases r with
  | connect ival =>
    by_cases hbusy : s.Busy
    · have hrun : s.run (.connect ival) = (ebusy, s) := if_pos hbusy
      rw [hrun]
      exact iff_of_true rfl (.inl hbusy)
    · have hrun : s.run (.connect ival) = _ := connect_eq hs.regs hbusy ival
      rw [hrun]
      constructor
      · intro h
        have hint : ival &&& 0xFFFF = s.intMsk := congrArg Device.intMsk h
        have hmask : portByte s.intMsk .b ||| portByte ival .a = s.reg (.ptrMsk .b) :=
          congrArg (fun t : Device => t.reg (.ptrMsk .b)) h
        have hlow : portByte ival .a = portByte s.intMsk .a := by rw [← hint, portByte_and]
        rw [hlow, hs.regs] at hmask
        exact .inr ⟨hint, hmask⟩
      · rintro (h | ⟨hint, hmask⟩)
        · exact absurd h hbusy
        · have hlow : portByte ival .a = portByte s.intMsk .a := by rw [← hint, portByte_and]
          have hbytes : (fun p => portByte s.intMsk p ||| portByte ival .a) =
              portByte s.intMsk := by
            funext p
            rw [hlow]
            cases p with
            | a => exact BitVec.or_self
            | b => exact hmask
          rw [hbytes, hint, ← hs.regs]
  | byteSetOutput ival =>
    by_cases hconn : s.Connected ival
    · have hrun : s.run (.byteSetOutput ival) = (eisconn, s) := if_pos hconn
      rw [hrun]
      exact iff_of_true rfl (.inl hconn)
    · have hrun : s.run (.byteSetOutput ival) = _ := if_neg hconn
      rw [hrun]
      constructor
      · exact fun h => .inr (congrArg Device.outMsk h)
      · rintro (h | h)
        · exact absurd h hconn
        · have hdir : s.csdir = s.outMsk.setWidth 16 := hs.coherent.dir
          rw [h, ← hdir]
  | byteWrite msk val => exact byteWrite_same_iff s msk val
  | reset =>
    change s.reset = s ↔ _
    constructor
    · intro h
      refine ⟨eq_zero_of_portByte hs.lines fun p => ?_, ?_⟩
      · have hmask : s.reset.reg (.ptrMsk p) = s.reg (.ptrMsk p) := by rw [h]
        rw [reset_eq, hs.regs] at hmask
        exact hmask.symm
      · have hout : s.reset.outMsk = s.outMsk := by rw [h]
        rw [reset_eq] at hout
        exact hout.symm
    · rintro ⟨hint, hout⟩
      have hbyte : (fun _ => 0) = portByte s.intMsk := by
        funext p
        rw [hint]
        cases p <;> rfl
      have hdir : s.csdir = 0 := by
        rw [hs.coherent.dir]
        change s.outMsk.setWidth 16 = 0
        rw [hout]
        rfl
      rw [reset_eq, hbyte, ← hs.regs, ← hs.csnit, ← hdir, ← hout]

theorem Device.Settled.ioctl_iff (hs : s.Settled) (a : Request × Option Trouble) :
    ((s.ioctl a).2.Coherent ∧ s.Refusing a) ↔ Fitting s a := by
  obtain ⟨r, _ | _ | _ | _⟩ := a
  · exact hs.run_iff r
  · exact iff_of_true ⟨hs.coherent, fun _ => rfl⟩ trivial
  · exact iff_of_true ⟨hs.coherent, fun _ => rfl⟩ trivial
  · have hfails : (s.ioctl (r, some .copyTo)).1 ≠ 0 := by
      change (if (s.run r).1 = 0 then eacces else (s.run r).1) ≠ 0
      split
      · decide
      · assumption
    change _ ↔ s.Idle r
    rw [← hs.run_eq_iff r]
    constructor
    · exact fun h => h.2 hfails
    · intro h
      have hsame : (s.ioctl (r, some .copyTo)).2 = s := h
      refine ⟨?_, fun _ => hsame⟩
      rw [hsame]
      exact hs.coherent

theorem Device.Settled.ioctl (hs : s.Settled) {a : Request × Option Trouble} (ha : Fitting s a) :
    (s.ioctl a).2.Settled := by
  obtain ⟨r, _ | _ | _ | _⟩ := a
  · exact hs.run ha
  · exact hs
  · exact hs
  · have hsame : (s.ioctl (r, some .copyTo)).2 = s := (hs.run_eq_iff r).mpr ha
    rw [hsame]
    exact hs

/-! ### Runs -/

theorem settled_of_reachUnder (h : icvBoard.ReachUnder Fitting s) : s.Settled := by
  refine h.invariant ?_ ?_
  · rintro _ ⟨t, hint, rfl⟩
    exact settled_reset hint
  · intro s a s' hs ha hstep
    cases hstep
    exact hs.ioctl ha

/-- A module that was never reset, with interrupt vector 0x80. -/
def fresh : Device := ⟨0, 0, 0x80, fun _ => 0, 0, 0, fun _ => 0⟩

end KernelModules.Icv196
