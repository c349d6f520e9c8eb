import KernelModules.Ctr.CtimLifetime
import Mathlib.Data.Rat.Init

/-!
# The other ioctls of the timing receiver

Besides the tables, the ioctls of a client read and set registers of the module it works with:
the PLL, the output routing, the command word, the counters, the card's memory as a whole.

* `Registers` and `Card` are the fields of the module context and the registers of the card that
  these ioctls use, `ModuleState` is a module with all of them and `Board` what is on its card;
* `ControlFunction` lists the ioctls, `moduleFunction` carries them out on one module, and
  `Driver.run` does so for a client, with the test of the update lock;
* `Fpga` stands for what the card does by itself when it is reset or its bit stream is written.

What the reading ioctls return is left out, with the texts for the log.
-/

namespace KernelModules.Ctr

open Function KernelModules.Lib

/-! ### Registers -/

/-- `CtrDrvrPll`. -/
structure Pll where
  error : U32
  integrator : U32
  dac : U32
  lastItLen : U32
  phase : U32
  numAverage : U32
  kp : U32
  ki : U32
  deriving DecidableEq, Repr

/-- `CtrDrvrFpgaCounter`, without the history. -/
structure FpgaCounter where
  lockConfig : U32
  remOutMask : U32
  config : HwCounterConfiguration
  deriving DecidableEq, Repr

/-- The registers of a card that `ModuleContext` lacks.  `Command` is a port: `command` is the last
word of commands it was given, and the commands that are carried out once, RESET, LATCH_UTC and
SET_UTC, leave no trace in it. -/
structure Card where
  inputDelay : U32
  outputByte : U32
  command : U32
  pll : Pll
  setTime : U32
  setup : U32
  counters : ℕ → FpgaCounter

/-- The fields of `CtrDrvrModuleContext` that `ModuleContext` lacks, and the card. -/
structure Registers where
  interruptLevel : U32
  interruptVector : U32
  /-- `JTGAddress` is not null -/
  jtgAddress : Bool
  outputByte : U32
  irqBalance : Bool
  flashOpen : Bool
  hptdcOpen : Bool
  command : U32
  /-- a constant of the driver, 0 until it is first read -/
  pllAsyncPeriodNs : ℚ
  inputDelay : U32
  pll : Pll
  cableId : U32
  card : Card

/-- A module with all its fields. -/
structure ModuleState where
  context : ModuleContext
  registers : Registers

/-- What is on a card: RAM and registers. -/
structure Board where
  interruptEnable : U32
  trigs : ℕ → HwTrigger
  configs : ℕ → HwCounterConfiguration
  card : Card

def ModuleState.board (m : ModuleState) : Board :=
  ⟨m.context.hwInterruptEnable, m.context.hwTrigs, m.context.hwConfigs, m.registers.card⟩

def ModuleState.setBoard (m : ModuleState) (b : Board) : ModuleState where
  context := { m.context with
    hwInterruptEnable := b.interruptEnable, hwTrigs := b.trigs, hwConfigs := b.configs }
  registers := { m.registers with card := b.card }

/-- What a card does by itself: the command RESET, and a byte for the Xilinx. -/
structure Fpga where
  reset : Board → Board
  flash : BitVec 16 → Board → Board

/-- What an ioctl gives back, with the module after it; `none` is an access through a null `Map` or
outside the card. -/
abbrev ModuleOutcome := Option (Except Errno Unit × ModuleState)

def ModuleState.fail (m : ModuleState) (e : Errno) : ModuleOutcome := some (.error e, m)

def ModuleState.ok (m : ModuleState) : ModuleOutcome := some (.ok (), m)

/-- An ioctl that goes through `Map`. -/
def ModuleState.onMap (m : ModuleState) (f : ModuleState → ModuleOutcome) : ModuleOutcome :=
  if m.context.map then f m else none

/-! ### Command words -/

def commandEnable : U32 := 0x02
def commandDisable : U32 := 0x04
def commandSetHptdc : U32 := 0x20
def commandDebugHisOn : U32 := 0x80
def commandDebugHisOff : U32 := 0x100
def commandUtcPllOff : U32 := 0x200
def commandUtcPllOn : U32 := 0x400

/-- The command word changes, and the card is given it. -/
def writeCommand (m : ModuleState) (command : U32) : ModuleState :=
  { m with registers := { m.registers with
      command := command
      card := { m.registers.card with command := command } } }

/-- One bit of the command word is set, the opposite one cleared. -/
def switchCommand (m : ModuleState) (set clear : U32) : ModuleState :=
  writeCommand m ((m.registers.command ||| set) &&& ~~~clear)

/-- `ENABLE`. -/
def enable (m : ModuleState) (lav : ℤ) : ModuleState :=
  if lav = 0x20 then writeCommand m (m.registers.command ||| commandSetHptdc)
  else if lav = -0x21 then writeCommand m (m.registers.command &&& ~~~commandSetHptdc)
  else if lav ≠ 0 then switchCommand m commandEnable commandDisable
  else switchCommand m commandDisable commandEnable

/-- `SET_DEBUG_HISTORY`. -/
def setDebugHistory (m : ModuleState) (lav : ℤ) : ModuleState :=
  if lav ≠ 0 then switchCommand m commandDebugHisOn commandDebugHisOff
  else switchCommand m commandDebugHisOff commandDebugHisOn

/-- `SET_BRUTAL_PLL`. -/
def setBrutalPll (m : ModuleState) (lav : ℤ) : ModuleState :=
  if lav ≠ 0 then switchCommand m commandUtcPllOff commandUtcPllOn
  else switchCommand m commandUtcPllOn commandUtcPllOff

/-! ### Counters and outputs -/

def cntrCntrlRemoteMask : U32 := 0x3F
def cntrCntrlOutMask : U32 := 0x3FFC0
def cntrCntrlTtlBar : U32 := 0x80000000

/-- `CtrDrvrRemoteEXEC`. -/
def remoteExec : U32 := 0x20

def ModuleState.setCounter (m : ModuleState) (i : ℕ) (c : FpgaCounter) : ModuleState :=
  { m with registers := { m.registers with card := { m.registers.card with
      counters := update m.registers.card.counters i c } } }

/-- `SET_REMOTE`. -/
def setRemote (m : ModuleState) (counter remote : U32) : ModuleOutcome :=
  if 1 ≤ counter.toNat ∧ counter.toNat ≤ 8 then
    m.onMap fun m =>
      let c := m.registers.card.counters counter.toNat
      (m.setCounter counter.toNat { c with lockConfig := if remote ≠ 0 then 1 else 0 }).ok
  else m.fail .EINVAL

/-- `REMOTE`. -/
def remote (m : ModuleState) (counter remote : U32) : ModuleOutcome :=
  if 1 ≤ counter.toNat ∧ counter.toNat ≤ 8 then
    m.onMap fun m =>
      let c := m.registers.card.counters counter.toNat
      if c.lockConfig ≠ 0 then
        (m.setCounter counter.toNat
          { c with remOutMask := remoteExec ||| (cntrCntrlRemoteMask &&& remote) }).ok
      else m.fail .EINVAL
  else m.fail .EINVAL

/-- `SET_OUT_MASK`. -/
def setOutMask (m : ModuleState) (counter mask polarity : U32) : ModuleOutcome :=
  if 1 ≤ counter.toNat ∧ counter.toNat ≤ 8 then
    m.onMap fun m =>
      let c := m.registers.card.counters counter.toNat
      let mask := if mask = 0 then 1#32 <<< counter.toNat else mask
      let msk := if polarity = 1 then cntrCntrlTtlBar else 0
      (m.setCounter counter.toNat
        { c with remOutMask := autoShiftLeft cntrCntrlOutMask mask ||| msk }).ok
  else m.fail .EINVAL

/-- `SET_CONFIG`, which looks at the counter before it knows that there is one. -/
def setConfig (m : ModuleState) (counter : U32) (config : CounterConfiguration) : ModuleOutcome :=
  m.onMap fun m =>
    let c := m.registers.card.counters counter.toNat
    if counter.toNat ≤ 8 ∧ c.lockConfig ≠ 0 then
      (m.setCounter counter.toNat { c with config := configToHard config }).ok
    else m.fail .EINVAL

/-- The word for the P2 connector: one byte, or none. -/
def outputByteWord (outputByte : ℕ) : U32 :=
  if outputByte ≠ 0 then 0x100 ||| 1#32 <<< (outputByte - 1) else 0x100

/-- `SET_OUTPUT_BYTE`. -/
def setOutputByte (m : ModuleState) (lav : ℤ) : ModuleOutcome :=
  if 0 ≤ lav ∧ lav ≤ 8 then
    m.onMap fun m => ModuleState.ok { m with registers := { m.registers with
      outputByte := BitVec.ofInt 32 lav
      card := { m.registers.card with outputByte := outputByteWord lav.toNat } } }
  else m.fail .EINVAL

/-! ### The whole card -/

/-- One word of a `CtrDrvrPll`. -/
def Pll.setWord (p : Pll) (i : ℕ) (v : U32) : Pll :=
  match i with
  | 0 => { p with error := v }
  | 1 => { p with integrator := v }
  | 2 => { p with dac := v }
  | 3 => { p with lastItLen := v }
  | 4 => { p with phase := v }
  | 5 => { p with numAverage := v }
  | 6 => { p with kp := v }
  | 7 => { p with ki := v }
  | _ => p

/-- One word of a `CtrDrvrFpgaCounter`: the control words, eleven words of history and the
configuration. -/
def FpgaCounter.setWord (c : FpgaCounter) (i : ℕ) (v : U32) : FpgaCounter :=
  match i with
  | 0 => { c with lockConfig := v }
  | 2 => { c with remOutMask := v }
  | 14 => { c with config := { c.config with config := v } }
  | 15 => { c with config := { c.config with delay := v } }
  | _ => c

/-- The size of the window the card is seen through, in words. -/
def windowWords : ℕ := 0x4000

/-- A write to word `j` of `CtrDrvrMemoryMap`. -/
def Board.setWord (b : Board) (j : ℕ) (v : U32) : Board :=
  if j = 1 then { b with interruptEnable := v }
  else if j = 3 then { b with card := { b.card with inputDelay := v } }
  else if j = 6 then { b with card := { b.card with outputByte := v } }
  else if j = 8 then { b with card := { b.card with command := v } }
  else if 9 ≤ j ∧ j < 17 then { b with card := { b.card with pll := b.card.pll.setWord (j - 9) v } }
  else if j = 20 then { b with card := { b.card with setTime := v } }
  else if 21 ≤ j ∧ j < 165 then
    let c := (j - 21) / 16
    { b with card := { b.card with
      counters := update b.card.counters c ((b.card.counters c).setWord ((j - 21) % 16) v) } }
  else if 389 ≤ j ∧ j < 4485 then
    let i := (j - 389) / 2
    let t := b.trigs i
    let t := if (j - 389) % 2 = 0 then { t with frame := v } else { t with trigger := v }
    { b with trigs := update b.trigs i t }
  else if 4485 ≤ j ∧ j < 8581 then
    let i := (j - 4485) / 2
    let c := b.configs i
    let c := if (j - 4485) % 2 = 0 then { c with config := v } else { c with delay := v }
    { b with configs := update b.configs i c }
  else if j = 12678 then { b with card := { b.card with setup := v } }
  else b

/-- The loop of `RawIo` for a write: `uary` from word `j` on.  `berr` says after which words the bus
error count is not zero. -/
def rawIo (berr : ℕ → Bool) : ℕ → List U32 → Board → Option (Except Errno Unit × Board)
  | _, [], b => some (.ok (), b)
  | j, v :: uary, b =>
    if j < windowWords then
      if berr j then some (.error Errno.ENXIO, b.setWord j v)
      else rawIo berr (j + 1) uary (b.setWord j v)
    else none

/-- The parameters `Reset` falls back on. -/
def Pll.orDefault (p : Pll) : Pll :=
  if p.kp = 0 then { p with kp := 337326, ki := 901, numAverage := 100, phase := 1950 } else p

/-- `Reset`. -/
def reset (fpga : Fpga) (m : ModuleState) : ModuleState :=
  let b := fpga.reset m.board
  let r := m.registers
  let command := r.command &&& ~~~commandSetHptdc
  { context := { m.context with
      hwInterruptEnable := m.context.interruptEnable, hwTrigs := b.trigs, hwConfigs := b.configs }
    registers := { r with
      command := command
      pll := r.pll.orDefault
      card := { b.card with
        command := command
        counters := fun i =>
          let c := b.card.counters i
          if 1 ≤ i ∧ i ≤ 8 ∧ c.remOutMask = 0 then
            { c with remOutMask := autoShiftLeft cntrCntrlOutMask (1#32 <<< i) }
          else c
        outputByte := outputByteWord r.outputByte.toNat
        setup := r.interruptLevel <<< 8 ||| r.interruptVector &&& 0xFF
        pll := r.pll.orDefault } } }

/-! ### The ioctls -/

/-- The ioctls that read, and those that set something of the client's own.  `GET_UTC` has the card
latch its time, and `GET_QUEUE_OVERFLOW` and `GET_STATUS` clear counts of the client and of bus
errors. -/
inductive Query
  | setSwDebug
  | getSwDebug
  | getVersion
  | setTimeout
  | getTimeout
  | setQueueFlag
  | getQueueFlag
  | getQueueSize
  | getQueueOverflow
  | getModuleDescriptor
  | getModule
  | getModuleCount
  | getStatus
  | getClientList
  | getClientConnections
  | getUtc
  | getCableId
  | getAction
  | listCtimObjects
  | getPtimBinding
  | listPtimObjects
  | getOutputByte
  | getInputDelay
  | getRemote
  | getModuleStats
  | getOutMask
  | getConfig
  | getCounterHistory
  | getPll
  | readTelegram
  | readEventHistory
  | getReceptionErrors
  | getIoStatus
  | getIdentity
  | illegal
  deriving DecidableEq, Repr

/-- The ioctls of this file. -/
inductive ControlFunction
  | query (q : Query)
  | getPllAsyncPeriod
  | reset
  | setUtc (lav : U32)
  | setCableId (lav : U32)
  | jtagOpen
  | jtagReadByte
  | jtagWriteByte (sav : BitVec 16)
  | jtagClose
  | hptdcOpen
  | hptdcIo
  | hptdcClose
  | rawRead (berr : Bool)
  | rawWrite (offset : U32) (uary : List U32) (berr : ℕ → Bool)
  | setOutputByte (lav : ℤ)
  | enable (lav : ℤ)
  | setDebugHistory (lav : ℤ)
  | setBrutalPll (lav : ℤ)
  | setInputDelay (lav : U32)
  | setRemote (counter remote : U32)
  | remote (counter remote : U32)
  | setOutMask (counter mask polarity : U32)
  | setConfig (counter : U32) (config : CounterConfiguration)
  | setPll (pll : Pll)
  | setPllAsyncPeriod

/-- The ioctls that a locked module refuses. -/
def ControlFunction.guarded : ControlFunction → Bool
  | .query _ | .getPllAsyncPeriod => false
  | _ => true

/-- The ioctls of this file on the client's module. -/
def moduleFunction (fpga : Fpga) (m : ModuleState) : ControlFunction → ModuleOutcome
  | .query .illegal => m.fail .EINVAL
  | .query _ => m.ok
  | .getPllAsyncPeriod =>
    if m.registers.pllAsyncPeriodNs ≠ 0 then m.ok
    else ModuleState.ok { m with registers := { m.registers with pllAsyncPeriodNs := 1000 / 40 } }
  | .reset => m.onMap fun m => (Ctr.reset fpga m).ok
  | .setUtc lav => m.onMap fun m => ModuleState.ok { m with registers := { m.registers with
      card := { m.registers.card with setTime := lav } } }
  | .setCableId lav => ModuleState.ok { m with registers := { m.registers with cableId := lav } }
  | .jtagOpen =>
    let m := { m with registers := { m.registers with
      irqBalance := false, flashOpen := m.registers.jtgAddress } }
    if m.registers.jtgAddress then m.ok else m.fail .EINVAL
  | .jtagReadByte => if m.registers.flashOpen then m.ok else m.fail .EBUSY
  | .jtagWriteByte sav =>
    if m.registers.flashOpen then (m.setBoard (fpga.flash sav m.board)).ok else m.fail .EBUSY
  | .jtagClose => m.onMap fun m => ModuleState.ok
      { context := { m.context with hwInterruptEnable := m.context.interruptEnable }
        registers := { m.registers with flashOpen := false, irqBalance := true } }
  | .hptdcOpen => ModuleState.ok { m with registers := { m.registers with hptdcOpen := true } }
  | .hptdcIo => if m.registers.hptdcOpen then m.onMap fun m => m.ok else m.fail .EINVAL
  | .hptdcClose => ModuleState.ok { m with registers := { m.registers with hptdcOpen := false } }
  | .rawRead berr => m.onMap fun m => if berr then m.fail Errno.ENXIO else m.ok
  | .rawWrite offset uary berr => m.onMap fun m =>
      (rawIo berr offset.toNat uary m.board).map fun (r, b) => (r, m.setBoard b)
  | .setOutputByte lav => Ctr.setOutputByte m lav
  | .enable lav => m.onMap fun m => (Ctr.enable m lav).ok
  | .setDebugHistory lav => m.onMap fun m => (Ctr.setDebugHistory m lav).ok
  | .setBrutalPll lav => m.onMap fun m => (Ctr.setBrutalPll m lav).ok
  | .setInputDelay lav => m.onMap fun m => ModuleState.ok { m with registers := { m.registers with
      inputDelay := lav, card := { m.registers.card with inputDelay := lav } } }
  | .setRemote counter remote => Ctr.setRemote m counter remote
  | .remote counter remote => Ctr.remote m counter remote
  | .setOutMask counter mask polarity => Ctr.setOutMask m counter mask polarity
  | .setConfig counter config => Ctr.setConfig m counter config
  | .setPll pll => m.onMap fun m => ModuleState.ok { m with registers := { m.registers with
      pll := pll, card := { m.registers.card with pll := pll } } }
  | .setPllAsyncPeriod => m.ok

/-! ### All calls -/

/-- The driver with all its registers. -/
structure Driver where
  area : WorkingArea
  registers : ℕ → Registers

def Driver.module (d : Driver) (midx : ℕ) : ModuleState :=
  ⟨d.area.moduleContexts midx, d.registers midx⟩

def Driver.setModule (d : Driver) (midx : ℕ) (m : ModuleState) : Driver where
  area := d.area.setModule midx m.context
  registers := update d.registers midx m.registers

/-- A call of a client. -/
inductive DriverCall
  | object (c : ObjectCall)
  | control (cnum : ℕ) (cm : ControlFunction)

/-- The outcome of a call. -/
def Driver.run (fpga : Fpga) (d : Driver) : DriverCall → Option (Except Errno Unit × Driver)
  | .object c => (c.run d.area).map fun (r, s) => (r, { d with area := s })
  | .control cnum cm =>
    match d.area.enter cnum with
    | .error e => some (.error e, d)
    | .ok ccon =>
      let m := d.module ccon.moduleIndex
      if cm.guarded && m.context.upLock then some (.error .EINVAL, d)
      else (moduleFunction fpga m cm).map fun (r, m) => (r, d.setModule ccon.moduleIndex m)

end KernelModules.Ctr
