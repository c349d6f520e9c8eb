import KernelModules.Ctr.Hard
import KernelModules.Lib.Table
import KernelModules.Lib.Transition
import Mathlib.Logic.Function.Basic

/-!
# The timing receiver driver

Clients connect to hardware interrupts, to timing events (CTIM) and to local timings (PTIM) of the
installed modules.  The driver keeps one context per module, with a table of 2048 triggers, and
one per client.

* `ModuleContext`, `ClientContext` and `WorkingArea` are the driver's state, with the registers
  and the RAM of each card;
* `connect`, `disConnect` and `disConnectAll` are the functions of the same names, `setAction`
  and the functions that create and destroy objects the bodies of their ioctls;
* `ctrDrvrIoctl`, `ctrDrvrOpen` and `ctrDrvrClose` are the entry points, and `ctrDriver` is the
  transition system of all calls by all clients.

A result `none` is an access outside the driver's tables or through a null `Map`: no call comes
back from it.
-/

namespace KernelModules.Ctr

open Function KernelModules.Lib

/-- The errors the modelled functions return. -/
inductive Errno
  | EINVAL
  | EBUSY
  | ENOMEM
  | ENXIO
  | ENODEV
  | EBADF
  | EFAULT
  deriving DecidableEq, Repr

/-- `CtrDrvrConnection`. -/
structure Connection where
  module : U32
  eqpClass : ConnectionClass
  eqpNum : U32
  deriving DecidableEq, Repr

/-- `CtrDrvrAction`. -/
structure Action where
  triggerNumber : U32
  eqpNum : U32
  eqpClass : ConnectionClass
  trigger : Trigger
  config : CounterConfiguration
  deriving DecidableEq, Repr

/-- `CtrDrvrCtimBinding`. -/
structure CtimBinding where
  eqpNum : U32
  frame : U32
  deriving DecidableEq, Repr

/-- `CtrDrvrPtimBinding`. -/
structure PtimBinding where
  eqpNum : U32
  moduleIndex : BitVec 8
  counter : BitVec 8
  size : BitVec 16
  startIndex : BitVec 16
  deriving DecidableEq, Repr

/-- `CtrDrvrModuleContext`, and the card behind its `Map`. -/
structure ModuleContext where
  /-- `Map` is not null -/
  map : Bool
  inUse : Bool
  upLock : Bool
  interruptEnable : U32
  configs : ℕ → CounterConfiguration
  clients : ℕ → U32
  trigs : ℕ → Trigger
  eqpNum : ℕ → U32
  eqpClass : ℕ → ConnectionClass
  hardClients : ℕ → U32
  /-- the memory that an index outside `HardClients` reads -/
  beyond : U32 → U32
  /-- the enable register and the RAM tables of the card -/
  hwInterruptEnable : U32
  hwTrigs : ℕ → HwTrigger
  hwConfigs : ℕ → HwCounterConfiguration

/-- `CtrDrvrClientContext`; there are 16. -/
structure ClientContext where
  inUse : Bool
  clientIndex : Fin 16
  moduleIndex : ℕ

/-- `CtrDrvrWorkingArea`. -/
structure WorkingArea where
  ctim : List CtimBinding
  ptim : List PtimBinding
  modules : ℕ
  moduleContexts : ℕ → ModuleContext
  clientContexts : Fin 16 → ClientContext

def WorkingArea.setModule (s : WorkingArea) (midx : ℕ) (m : ModuleContext) : WorkingArea :=
  { s with moduleContexts := update s.moduleContexts midx m }

/-- What a call gives back: a result and the new state, or a fault. -/
abbrev Outcome := Option (Except Errno Unit × WorkingArea)

def WorkingArea.fail (s : WorkingArea) (e : Errno) : Outcome := some (.error e, s)

def WorkingArea.ok (s : WorkingArea) : Outcome := some (.ok (), s)

/-! ### Interrupts -/

/-- `1 << ClientIndex`. -/
def ClientContext.mask (ccon : ClientContext) : U32 := 1#32 <<< ccon.clientIndex.val

/-- `1 << c`, with the shift count taken modulo the width as the processor does. -/
def sourceMask (c : U32) : U32 := 1#32 <<< (c.toNat % 32)

/-- `EnableInterrupts`. -/
def enableInterrupts (m : ModuleContext) (msk : U32) : Option ModuleContext :=
  if m.map then
    some { m with
      interruptEnable := m.interruptEnable ||| msk
      hwInterruptEnable := m.interruptEnable ||| msk }
  else none

/-- `HardClients[i]`, for any index. -/
def ModuleContext.readHardClients (m : ModuleContext) (i : U32) : U32 :=
  if i.toNat < interruptSources then m.hardClients i.toNat else m.beyond i

/-- The counter that `DisableInterrupts` looks at; `none` is its `-1`. -/
def disableCounter (m : ModuleContext) (tndx : ℕ) (clss : ConnectionClass) : Option U32 :=
  if clss ≠ .hard then
    if (m.trigs tndx).counter = 0xFFFFFFFF then none else some (m.trigs tndx).counter
  else if tndx ≤ counters then some (BitVec.ofNat 32 tndx)
  else none

/-- The three tests of `DisableInterrupts`: somebody else needs the interrupt. -/
def KeptEnabled (m : ModuleContext) (tndx : ℕ) (cntr : Option U32) (cmsk : U32) : Prop :=
  (∃ c, cntr = some c ∧ (m.readHardClients c &&& ~~~cmsk ≠ 0
    ∨ ∃ i < ramTableSize, (m.trigs i).counter = c ∧ m.clients i &&& ~~~cmsk ≠ 0))
  ∨ m.readHardClients (BitVec.ofNat 32 tndx) &&& ~~~cmsk ≠ 0

/-- The loop over the triggers in `DisableInterrupts`. -/
def triggerKept (m : ModuleContext) (c cmsk : U32) : Bool :=
  (List.range ramTableSize).any fun i =>
    (m.trigs i).counter == c && m.clients i &&& ~~~cmsk != 0

theorem triggerKept_iff (m : ModuleContext) (c cmsk : U32) : triggerKept m c cmsk = true ↔
    ∃ i < ramTableSize, (m.trigs i).counter = c ∧ m.clients i &&& ~~~cmsk ≠ 0 := by
  simp [triggerKept]

instance (m : ModuleContext) (tndx : ℕ) (cntr : Option U32) (cmsk : U32) :
    Decidable (KeptEnabled m tndx cntr cmsk) :=
  match cntr with
  | none =>
    decidable_of_iff (m.readHardClients (BitVec.ofNat 32 tndx) &&& ~~~cmsk ≠ 0)
      (by simp [KeptEnabled])
  | some c =>
    decidable_of_iff ((m.readHardClients c &&& ~~~cmsk ≠ 0 ∨ triggerKept m c cmsk = true)
        ∨ m.readHardClients (BitVec.ofNat 32 tndx) &&& ~~~cmsk ≠ 0)
      (by simp [KeptEnabled, triggerKept_iff])

/-- `DisableInterrupts`. -/
def disableInterrupts (m : ModuleContext) (tndx : ℕ) (clss : ConnectionClass) (cmsk : U32) :
    Option ModuleContext :=
  let cntr := disableCounter m tndx clss
  if KeptEnabled m tndx cntr cmsk then some m
  else if m.map then
    let hmsk := sourceMask (cntr.getD (BitVec.ofNat 32 tndx))
    some { m with
      interruptEnable := m.interruptEnable &&& ~~~hmsk
      hwInterruptEnable := m.interruptEnable &&& ~~~hmsk }
  else none

/-! ### Connecting -/

/-- `GetPtimModule`, minus one. -/
def getPtimModule (s : WorkingArea) (eqpNum : U32) : Option ℕ :=
  (s.ptim.find? fun o => o.eqpNum = eqpNum).map fun o => o.moduleIndex.toNat

/-- A slot gets a client: the client's bit, the enable bit and the card's bus bit. -/
def connectSlot (m : ModuleContext) (i : ℕ) (cmsk hmsk : U32) : Option ModuleContext :=
  if m.map then
    some { m with
      clients := update m.clients i (m.clients i ||| cmsk)
      interruptEnable := m.interruptEnable ||| hmsk
      hwConfigs := update m.hwConfigs i
        { m.hwConfigs i with config := (m.hwConfigs i).config ||| busBit } }
  else none

/-- The loop of `Connect` for a PTIM: every slot of the object, with the number of them. -/
def connectPtim (m : ModuleContext) (eqpNum cmsk : U32) : Option (ℕ × ModuleContext) :=
  loop (fun i (count, m) =>
    if eqpNum = m.eqpNum i ∧ .ptim = m.eqpClass i then
      (connectSlot m i cmsk (sourceMask (m.trigs i).counter)).map fun m => (count + 1, m)
    else some (count, m)) ramTableSize (0, m)

/-- The first slot with a property. -/
def findSlot (p : ℕ → Bool) : Option ℕ := (List.range ramTableSize).find? p

/-- The trigger and the configuration of a new CTIM instance. -/
def ctimTrigger (eqpNum frame : U32) : Trigger := ⟨eqpNum, frame, 0, 0, 0, 0, 0⟩

def ctimConfig : CounterConfiguration := ⟨onZeroBus, 0, 0, 0, 0, 0⟩

/-- A new CTIM instance in slot `i`. -/
def newCtimInstance (m : ModuleContext) (i : ℕ) (eqpNum frame cmsk : U32) :
    Option ModuleContext :=
  if m.map then
    some { m with
      eqpNum := update m.eqpNum i eqpNum
      eqpClass := update m.eqpClass i .ctim
      trigs := update m.trigs i (ctimTrigger eqpNum frame)
      configs := update m.configs i ctimConfig
      hwTrigs := update m.hwTrigs i (triggerToHard (ctimTrigger eqpNum frame))
      hwConfigs := update m.hwConfigs i (configToHard ctimConfig)
      clients := update m.clients i (m.clients i ||| cmsk)
      interruptEnable := m.interruptEnable ||| 1 }
  else none

/-- The loop of `Connect` for hardware interrupts. -/
def connectHard (m : ModuleContext) (eqpNum cmsk : U32) : Option (ℕ × ModuleContext) :=
  loop (fun i (count, m) =>
    let hmsk := 1#32 <<< i
    if eqpNum &&& hmsk ≠ 0 then
      some (count + 1, { m with
        interruptEnable := m.interruptEnable ||| hmsk
        hardClients := update m.hardClients i (m.hardClients i ||| cmsk) })
    else some (count, m)) interruptSources (0, m)

/-- The end of `Connect`: enable on the card what was connected, or report that nothing was. -/
def finishConnect (s : WorkingArea) (midx count : ℕ) (m : ModuleContext) : Outcome :=
  if count ≠ 0 then
    (enableInterrupts m m.interruptEnable).bind fun m => (s.setModule midx m).ok
  else (s.setModule midx m).fail Errno.ENXIO

/-- `Connect` for a CTIM: an existing instance, or a new one in the first empty slot. -/
def connectCtim (s : WorkingArea) (midx : ℕ) (eqpNum cmsk : U32) : Outcome :=
  let m := s.moduleContexts midx
  match findSlot fun i => eqpNum = m.eqpNum i ∧ .ctim = m.eqpClass i with
  | some i => (connectSlot m i cmsk 1).bind (finishConnect s midx 1)
  | none =>
    match s.ctim.find? fun o => eqpNum = o.eqpNum with
    | none => s.fail Errno.ENXIO
    | some o =>
      if frameHeader o.frame ≠ 0 then
        match findSlot fun i => m.eqpNum i = 0 with
        | none => s.fail .ENOMEM
        | some i => (newCtimInstance m i eqpNum o.frame cmsk).bind (finishConnect s midx 1)
      else s.fail Errno.ENXIO

/-- The module of a connection: the one it names, or else the client's. -/
def Connection.moduleOr (conx : Connection) (dflt : ℕ) : ℕ :=
  if 1 ≤ conx.module.toNat ∧ conx.module.toNat ≤ 16 then conx.module.toNat - 1 else dflt

/-- `Connect`. -/
def connect (s : WorkingArea) (conx : Connection) (ccon : ClientContext) : Outcome :=
  let midx := conx.moduleOr ccon.moduleIndex
  match conx.eqpClass with
  | .ptim =>
    match getPtimModule s conx.eqpNum with
    | none => s.fail Errno.ENXIO
    | some midx =>
      (connectPtim (s.moduleContexts midx) conx.eqpNum ccon.mask).bind fun (count, m) =>
        finishConnect s midx count m
  | .ctim => connectCtim s midx conx.eqpNum ccon.mask
  | _ =>
    (connectHard (s.moduleContexts midx) conx.eqpNum ccon.mask).bind fun (count, m) =>
      finishConnect s midx count m

/-! ### Disconnecting -/

/-- `DisConnectOne` for a trigger. -/
def disConnectTrigger (m : ModuleContext) (tndx : ℕ) (clss : ConnectionClass) (cmsk : U32) :
    Option ModuleContext :=
  if cmsk &&& m.clients tndx ≠ 0 then
    let m := { m with clients := update m.clients tndx (m.clients tndx &&& ~~~cmsk) }
    if m.clients tndx = 0 then
      (disableInterrupts m tndx clss cmsk).bind fun m =>
        if m.map then
          if m.eqpClass tndx = .ctim then
            some { m with
              hwTrigs := update m.hwTrigs tndx (triggerToHard .zero)
              hwConfigs := update m.hwConfigs tndx (configToHard .zero)
              eqpNum := update m.eqpNum tndx 0
              eqpClass := update m.eqpClass tndx .hard }
          else
            some { m with
              hwConfigs := update m.hwConfigs tndx
                { m.hwConfigs tndx with config := (m.hwConfigs tndx).config &&& ~~~busBit } }
        else none
    else some m
  else some m

/-- `DisConnectOne` for a hardware interrupt.  Behind the end of `HardClients` it writes to
whatever is there, unless that is zero. -/
def disConnectHard (m : ModuleContext) (tndx : ℕ) (cmsk : U32) : Option ModuleContext :=
  if tndx < interruptSources then
    if m.hardClients tndx ≠ 0 then
      let m := { m with hardClients := update m.hardClients tndx (m.hardClients tndx &&& ~~~cmsk) }
      if m.hardClients tndx = 0 then disableInterrupts m tndx .hard cmsk else some m
    else some m
  else if m.beyond (BitVec.ofNat 32 tndx) = 0 then some m
  else none

/-- `DisConnectOne`. -/
def disConnectOne (m : ModuleContext) (tndx : ℕ) (clss : ConnectionClass) (cmsk : U32) :
    Option ModuleContext :=
  match clss with
  | .ctim => disConnectTrigger m tndx .ctim cmsk
  | .ptim => disConnectTrigger m tndx .ptim cmsk
  | .hard => disConnectHard m tndx cmsk
  | .other _ => some m

/-- The loop over the triggers of `DisConnect`. -/
def disConnectTriggers (m : ModuleContext) (conx : Connection) (cmsk : U32) :
    Option ModuleContext :=
  loop (fun i m =>
    if conx.eqpNum = m.eqpNum i ∧ conx.eqpClass = m.eqpClass i then
      disConnectOne m i conx.eqpClass cmsk
    else some m) ramTableSize m

/-- The loop over the hardware interrupts. -/
def disConnectSources (m : ModuleContext) (cmsk : U32) : Option ModuleContext :=
  loop (fun i m => disConnectOne m i .hard cmsk) interruptSources m

/-- `DisConnect`. -/
def disConnect (s : WorkingArea) (conx : Connection) (ccon : ClientContext) : Outcome :=
  if 1 ≤ conx.module.toNat ∧ conx.module.toNat ≤ 16 then
    let midx := conx.module.toNat - 1
    let m := s.moduleContexts midx
    (if conx.eqpClass ≠ .hard then disConnectTriggers m conx ccon.mask
      else disConnectSources m ccon.mask).bind fun m => (s.setModule midx m).ok
  else none

/-- The first loop of `DisConnectAll` on one module. -/
def disConnectOwned (m : ModuleContext) (cmsk : U32) : Option ModuleContext :=
  loop (fun i m =>
    if m.eqpNum i ≠ 0 then disConnectOne m i (m.eqpClass i) cmsk else some m) ramTableSize m

/-- `DisConnectAll`. -/
def disConnectAll (s : WorkingArea) (ccon : ClientContext) : Outcome :=
  (loop (fun midx s =>
    (disConnectOwned (s.moduleContexts midx) ccon.mask).bind fun m =>
      (disConnectSources m ccon.mask).map (s.setModule midx)) s.modules s).bind WorkingArea.ok

/-! ### Actions and objects -/

/-- The override of `SET_ACTION`: the bus interrupt follows the connected clients. -/
def overrideBus (clients : U32) (config : CounterConfiguration) : CounterConfiguration :=
  if clients ≠ 0 then { config with onZero := config.onZero ||| onZeroBus }
  else { config with onZero := config.onZero &&& ~~~onZeroBus }

/-- The writes of `SET_ACTION` to slot `i`. -/
def writeAction (m : ModuleContext) (i : ℕ) (act : Action) : Option ModuleContext :=
  if m.map then
    let config := overrideBus (m.clients i) act.config
    some { m with
      hwTrigs := update m.hwTrigs i (triggerToHard act.trigger)
      trigs := update m.trigs i act.trigger
      hwConfigs := update m.hwConfigs i (configToHard config)
      configs := update m.configs i config }
  else none

/-- `SET_ACTION`. -/
def setAction (s : WorkingArea) (midx : ℕ) (act : Action) : Outcome :=
  let m := s.moduleContexts midx
  if 0 < act.triggerNumber.toNat ∧ act.triggerNumber.toNat ≤ ramTableSize then
    let i := act.triggerNumber.toNat - 1
    if m.eqpClass i = .hard then s.fail .EINVAL
    else if m.eqpNum i ≠ 0 then
      if m.eqpNum i ≠ act.eqpNum then s.fail .EINVAL
      else if m.eqpClass i ≠ act.eqpClass then s.fail .EINVAL
      else if (m.trigs i).counter ≠ act.trigger.counter then s.fail .EINVAL
      else (writeAction m i act).bind fun m => (s.setModule midx m).ok
    else
      let m := { m with
        eqpNum := update m.eqpNum i act.eqpNum
        eqpClass := update m.eqpClass i act.eqpClass }
      (writeAction m i act).bind fun m => (s.setModule midx m).ok
  else s.fail .EINVAL

/-- `CREATE_CTIM_OBJECT`. -/
def createCtim (s : WorkingArea) (ctim : CtimBinding) : Outcome :=
  if s.ctim.any fun o => ctim.eqpNum = o.eqpNum then s.fail .EBUSY
  else if s.ctim.length < 2048 then { s with ctim := s.ctim ++ [ctim] }.ok
  else s.fail .ENOMEM

/-- `DESTROY_CTIM_OBJECT`, for a client that works with module `midx`. -/
def destroyCtim (s : WorkingArea) (midx : ℕ) (ctim : CtimBinding) : Outcome :=
  if s.ctim.any fun o => ctim.eqpNum = o.eqpNum then
    if ∃ j < ramTableSize, ((s.moduleContexts midx).trigs j).ctim = ctim.eqpNum then s.fail .EBUSY
    else { s with ctim := removeFirst (fun o => ctim.eqpNum = o.eqpNum) s.ctim }.ok
  else s.fail .EINVAL

/-- The search of `CREATE_PTIM_OBJECT` for `want` adjacent empty slots: `n` slots are left, `size`
empty ones from `start` on lie right before slot `i`. -/
def searchSpace (m : ModuleContext) (want : ℕ) : ℕ → ℕ → ℕ → ℕ → Option ℕ
  | 0, _, _, _ => none
  | n + 1, i, size, start =>
    if m.eqpNum i = 0 then
      let start := if size = 0 then i else start
      if size + 1 ≥ want then some start else searchSpace m want n (i + 1) (size + 1) start
    else searchSpace m want n (i + 1) 0 start

def takeSlot (m : ModuleContext) (i : ℕ) (ptim : PtimBinding) : ModuleContext :=
  { m with
    eqpNum := update m.eqpNum i ptim.eqpNum
    eqpClass := update m.eqpClass i .ptim
    trigs := update m.trigs i { m.trigs i with counter := ptim.counter.setWidth 32 } }

/-- `CREATE_PTIM_OBJECT`. -/
def createPtim (s : WorkingArea) (ptim : PtimBinding) : Outcome :=
  if s.ptim.any fun o => ptim.eqpNum = o.eqpNum then s.fail .EBUSY
  else if s.ptim.length ≥ 2048 then s.fail .ENOMEM
  else if ptim.moduleIndex.toNat < s.modules then
    let midx := ptim.moduleIndex.toNat
    let m := s.moduleContexts midx
    match searchSpace m ptim.size.toNat ramTableSize 0 0 0 with
    | none => s.fail .EINVAL
    | some start =>
      (loop (fun j m => some (takeSlot m (start + j) ptim)) ptim.size.toNat m).bind fun m =>
        { s.setModule midx m with
          ptim := s.ptim ++ [{ ptim with startIndex := BitVec.ofNat 16 start }] }.ok
  else s.fail .EINVAL

def freeSlot (m : ModuleContext) (i : ℕ) : Option ModuleContext :=
  if m.map then
    some { m with
      hwTrigs := update m.hwTrigs i ⟨0, 0⟩
      eqpNum := update m.eqpNum i 0
      eqpClass := update m.eqpClass i .hard
      configs := update m.configs i .zero
      trigs := update m.trigs i .zero
      hwConfigs := update m.hwConfigs i (configToHard .zero) }
  else none

/-- `DESTROY_PTIM_OBJECT`. -/
def destroyPtim (s : WorkingArea) (ptim : PtimBinding) : Outcome :=
  let midx := ptim.moduleIndex.toNat
  if midx < s.modules then
    let m := s.moduleContexts midx
    if ∃ i < ramTableSize, (m.eqpNum i = ptim.eqpNum ∧ m.eqpClass i = .ptim) ∧ m.clients i ≠ 0 then
      s.fail .EBUSY
    else if ∃ i < ramTableSize, m.eqpNum i = ptim.eqpNum ∧ m.eqpClass i = .ptim then
      (loop (fun i m =>
        if m.eqpNum i = ptim.eqpNum ∧ m.eqpClass i = .ptim then freeSlot m i else some m)
        ramTableSize m).bind fun m =>
        { s.setModule midx m with
          ptim := removeFirst (fun o => ptim.eqpNum = o.eqpNum) s.ptim }.ok
    else s.fail .EINVAL
  else s.fail .EINVAL

/-! ### Entry points -/

/-- The ioctls of the model. -/
inductive Ioctl
  | setModule (lav : ℤ)
  | lock
  | unlock (pw : U32)
  | connect (conx : Connection)
  | disconnect (conx : Connection)
  | setAction (act : Action)
  | createCtim (ctim : CtimBinding)
  | destroyCtim (ctim : CtimBinding)
  | createPtim (ptim : PtimBinding)
  | destroyPtim (ptim : PtimBinding)

/-- The check of `clr_uplock`: the sum of the eight nibbles. -/
def nibbleSum : ℕ → U32 → ℕ
  | 0, _ => 0
  | n + 1, pw => (pw &&& 0xF).toNat + nibbleSum n (pw >>> 4)

/-- `clr_uplock`. -/
def clrUplock (m : ModuleContext) (pw : U32) : ModuleContext :=
  if nibbleSum 8 pw = 0x24 then { m with upLock := false } else m

/-- The ioctls that a locked module refuses. -/
def guardedIoctl (s : WorkingArea) (ccon : ClientContext) : Ioctl → Outcome
  | .connect conx => connect s conx ccon
  | .disconnect conx => if conx.eqpNum ≠ 0 then disConnect s conx ccon else disConnectAll s ccon
  | .setAction act => setAction s ccon.moduleIndex act
  | .createCtim ctim => createCtim s ctim
  | .destroyCtim ctim => destroyCtim s ccon.moduleIndex ctim
  | .createPtim ptim => createPtim s ptim
  | .destroyPtim ptim => destroyPtim s ptim
  | _ => s.fail .EINVAL

/-- The decoding of the command in `CtrDrvrIoctl`, for client `k` that works with a module in
use. -/
def decodeIoctl (s : WorkingArea) (k : Fin 16) (cm : Ioctl) : Outcome :=
  let ccon := s.clientContexts k
  let m := s.moduleContexts ccon.moduleIndex
  match cm with
  | .setModule lav =>
    if 1 ≤ lav ∧ lav ≤ s.modules then
      { s with clientContexts :=
          update s.clientContexts k { ccon with moduleIndex := (lav - 1).toNat } }.ok
    else s.fail .EINVAL
  | .lock => (s.setModule ccon.moduleIndex { m with upLock := true }).ok
  | .unlock pw => (s.setModule ccon.moduleIndex (clrUplock m pw)).ok
  | cm => if m.upLock then s.fail .EINVAL else guardedIoctl s ccon cm

/-- `CtrDrvrIoctl` on minor device `cnum + 1`. -/
def ctrDrvrIoctl (s : WorkingArea) (cnum : ℕ) (cm : Ioctl) : Outcome :=
  if h : cnum < 16 then
    let ccon := s.clientContexts ⟨cnum, h⟩
    if ccon.inUse = false then s.fail .EBADF
    else if (s.moduleContexts ccon.moduleIndex).inUse = false then s.fail .ENODEV
    else decodeIoctl s ⟨cnum, h⟩ cm
  else s.fail .ENODEV

/-- `CtrDrvrOpen`. -/
def ctrDrvrOpen (s : WorkingArea) (cnum : ℕ) : Outcome :=
  if h : cnum < 16 then
    if (s.clientContexts ⟨cnum, h⟩).inUse then s.fail .EBUSY
    else { s with clientContexts := update s.clientContexts ⟨cnum, h⟩ ⟨true, ⟨cnum, h⟩, 0⟩ }.ok
  else s.fail .EFAULT

/-- `CtrDrvrClose`. -/
def ctrDrvrClose (s : WorkingArea) (cnum : ℕ) : Outcome :=
  if h : cnum < 16 then
    let ccon := s.clientContexts ⟨cnum, h⟩
    disConnectAll { s with
      clientContexts := update s.clientContexts ⟨cnum, h⟩ { ccon with inUse := false } } ccon
  else s.fail .EFAULT

/-! ### All calls by all clients -/

/-- A call of a client, or a change of the memory behind a module's `HardClients`. -/
inductive Call
  | open (cnum : ℕ)
  | close (cnum : ℕ)
  | ioctl (cnum : ℕ) (cm : Ioctl)
  | memory (midx : ℕ) (beyond : U32 → U32)

/-- The outcome of a call. -/
def Call.run (s : WorkingArea) : Call → Outcome
  | .open cnum => ctrDrvrOpen s cnum
  | .close cnum => ctrDrvrClose s cnum
  | .ioctl cnum cm => ctrDrvrIoctl s cnum cm
  | .memory midx beyond => (s.setModule midx { s.moduleContexts midx with beyond := beyond }).ok

/-- The state after a call. -/
def WorkingArea.step (s : WorkingArea) (c : Call) : Option WorkingArea := (c.run s).map Prod.snd

/-- A module context after `CtrDrvrInstall`. -/
structure ModuleContext.Installed (m : ModuleContext) : Prop where
  upLock : m.upLock = false
  interruptEnable : m.interruptEnable = 0
  configs : ∀ i, m.configs i = .zero
  clients : ∀ i, m.clients i = 0
  trigs : ∀ i, m.trigs i = .zero
  eqpNum : ∀ i, m.eqpNum i = 0
  eqpClass : ∀ i, m.eqpClass i = .hard
  hardClients : ∀ i, m.hardClients i = 0
  hwInterruptEnable : m.hwInterruptEnable = 0
  hwTrigs : ∀ i, m.hwTrigs i = ⟨0, 0⟩

/-- The driver after `CtrDrvrInstall`: which modules answered, and what is in the
configuration RAM, is open. -/
structure WorkingArea.Installed (s : WorkingArea) : Prop where
  ctim : s.ctim = []
  ptim : s.ptim = []
  modules : s.modules ≤ 16
  moduleContexts : ∀ midx, (s.moduleContexts midx).Installed
  absent : ∀ midx, s.modules ≤ midx →
    (s.moduleContexts midx).map = false ∧ (s.moduleContexts midx).inUse = false
  clientContexts : ∀ k, s.clientContexts k = ⟨false, 0, 0⟩

/-- The driver: any calls by any clients in any order. -/
def ctrDriver : System WorkingArea Call := System.ofFun WorkingArea.Installed WorkingArea.step

/-! ### One card -/

/-- A module context as installed, with a card or without. -/
def blankModule (present : Bool) : ModuleContext where
  map := present
  inUse := present
  upLock := false
  interruptEnable := 0
  configs _ := .zero
  clients _ := 0
  trigs _ := .zero
  eqpNum _ := 0
  eqpClass _ := .hard
  hardClients _ := 0
  beyond _ := 0
  hwInterruptEnable := 0
  hwTrigs _ := ⟨0, 0⟩
  hwConfigs _ := ⟨0, 0⟩

/-- A driver with one card. -/
def oneModule : WorkingArea where
  ctim := []
  ptim := []
  modules := 1
  moduleContexts midx := blankModule (midx == 0)
  clientContexts _ := ⟨false, 0, 0⟩

/-- The context of client 0, when it has opened the driver. -/
def firstClient : ClientContext := ⟨true, 0, 0⟩

theorem oneModule_installed : oneModule.Installed where
  ctim := rfl
  ptim := rfl
  modules := by decide
  moduleContexts _ := ⟨rfl, rfl, fun _ => rfl, fun _ => rfl, fun _ => rfl, fun _ => rfl,
    fun _ => rfl, fun _ => rfl, rfl, fun _ => rfl⟩
  absent midx h := by
    have hne : (midx == 0) = false := by
      rw [beq_eq_false_iff_ne]
      rintro rfl
      exact absurd h (by decide)
    simp only [oneModule, blankModule, hne, and_self]
  clientContexts _ := rfl

end KernelModules.Ctr
