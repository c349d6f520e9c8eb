import Mathlib.Tactic
import KernelModules.Lib.Table

/-!
# The user table of the TG8 driver

The driver keeps a table of the actions of a module beside the one that the firmware has, with the
timing object that an action belongs to and the devices that are connected to it.

* `Tg8User` is an action, `Row` a row of the table and `Module` a module with its open devices;
* what is sent to the firmware is a `MailboxOp`, and `mailbox` says what it does with its own table.
  A transaction that fails ends the model;
* `tg8DrvrOpen`, `tg8DrvrClose`, `tg8DrvrWrite` and the cases of `Tg8DrvrIoctl` that connect a device
  are the requests, and `serve` is all of them;
* `attach_eq` and `detach_eq` say what a connection does to a row, `foldlM_rows` what a loop over rows
  does to the table.

The conditions of telegram groups are left out, and so are the queues, the timers and the pulses that
are simulated when a device is closed.
-/

namespace KernelModules.Tg8.Driver

open Function KernelModules.Lib

/-- `Tg8ACTIONS`. -/
def tg8Actions : ℕ := 256

/-- `Tg8PPM_LINES`. -/
def tg8PpmLines : ℕ := 24

/-- `Tg8MACHINES`. -/
def tg8Machines : ℕ := 6

/-- `Tg8GT_BIT`. -/
def tg8GtBit : ℕ := 3

/-! ### Control words -/

/-- `Tg8DO_OUTPUT`. -/
def doOutput : BitVec 16 := 1

/-- `Tg8DO_INTERRUPT`. -/
def doInterrupt : BitVec 16 := 2

/-- `Tg8TM_PPM`. -/
def tmPpm : BitVec 16 := 1

/-- `Tg8TM_LINE`. -/
def tmLine : BitVec 16 := 3

/-- `Tg8CW_INT_Get`. -/
def cwIntGet (cw : BitVec 16) : BitVec 16 := (cw >>> 14) &&& 3

/-- `Tg8CW_INT_Set`. -/
def cwIntSet (cw v : BitVec 16) : BitVec 16 := cw ||| (v <<< 14)

/-- `Tg8CW_INT_Clr`. -/
def cwIntClr (cw : BitVec 16) : BitVec 16 := cw &&& ~~~((3 : BitVec 16) <<< 14)

/-- `Tg8CW_STATE_Get`. -/
def cwStateGet (cw : BitVec 16) : BitVec 16 := (cw >>> 2) &&& 1

/-- `Tg8CW_STATE_Set`. -/
def cwStateSet (cw v : BitVec 16) : BitVec 16 := cw ||| (v <<< 2)

/-- `Tg8CW_STATE_Clr`. -/
def cwStateClr (cw : BitVec 16) : BitVec 16 := cw &&& ~~~((1 : BitVec 16) <<< 2)

/-- `Tg8CW_PPML_Set`. -/
def cwPpmlSet (cw v : BitVec 16) : BitVec 16 := cw ||| (v <<< 3)

/-- `Tg8CW_PPML_Clr`. -/
def cwPpmlClr (cw : BitVec 16) : BitVec 16 := cw &&& ~~~((3 : BitVec 16) <<< 3)

/-- `Tg8CW_CLOCK_Set`. -/
def cwClockSet (cw v : BitVec 16) : BitVec 16 := cw ||| v

/-- `Tg8CW_CLOCK_Clr`. -/
def cwClockClr (cw : BitVec 16) : BitVec 16 := cw &&& ~~~3

/-- `Tg8CW_MASK`. -/
def cwMask : BitVec 16 := (3 <<< 14) ||| (7 <<< 8) ||| (3 <<< 6) ||| 3 ||| (1 <<< 2)

/-! ### Actions -/

/-- `Tg8User`. -/
structure Tg8User where
  uEvent : BitVec 32
  uControl : BitVec 16
  uDelay : BitVec 16
  deriving DecidableEq, Repr

/-- `Tg8PpmUser`. -/
structure Tg8PpmUser where
  trigger : BitVec 32
  machine : BitVec 8
  groupNum : BitVec 8
  groupType : BitVec 8
  dim : BitVec 8
  lineGv : ℕ → BitVec 16
  lineCw : ℕ → BitVec 16
  lineDelay : ℕ → BitVec 16

/-- `Tg8ActionState`. -/
def Tg8DISABLED : BitVec 32 := 0
def Tg8ENABLED : BitVec 32 := 1
def Tg8INTERRUPT : BitVec 32 := 2
def Tg8NO_INTERRUPT : BitVec 32 := 3
def Tg8PPMT_DISABLED : BitVec 32 := 4
def Tg8PPMT_ENABLED : BitVec 32 := 5

/-- What the driver sends to the firmware: `ClearAction`, `SetAction` and `SetPpmAction` with one
action, `SetActionState` and `SetActionDelay`. -/
inductive MailboxOp
  | clearAction (row cnt : ℕ)
  | setAction (row : ℕ) (act : Tg8User)
  | setPpmAction (row : ℕ) (ppm : Tg8PpmUser)
  | setActionState (row cnt : ℕ) (state : BitVec 32)
  | setActionDelay (row cnt : ℕ) (delay clk : BitVec 16)

/-- A row of `Tg8DrvrUserTable`. -/
structure Row (Dev : Type*) where
  id : BitVec 32
  devMask : Finset Dev
  action : Tg8User
  dim : BitVec 8
  deriving DecidableEq

/-- `Tg8DrvrModuleContext`: the open devices, the user table with its size, and the module itself. -/
structure Module (Dev Card : Type*) where
  devMask : Finset Dev
  size : ℕ
  rows : ℕ → Row Dev
  card : Card

/-- `Tg8DrvrOnCloseMode`. -/
inductive OnCloseMode
  | LEAVE
  | DISABLE
  | CLEAR
  | DISABLE_SYNC
  deriving DecidableEq, Repr

/-- How a request ends. -/
inductive Reply
  | ok
  | EINVAL
  | ENOSPC
  | EBUSY
  | EBADF
  deriving DecidableEq, Repr

/-- The requests of a device.  A device is closed in the mode that it was given. -/
inductive Request
  | «open»
  | close (mode : OnCloseMode)
  | write (actions : List Tg8User)
  | clearAction (row cnt : BitVec 32)
  | setObject (id : BitVec 32) (ppm : Tg8PpmUser)
  | removeObject (id : BitVec 32)
  | connect (id mask : BitVec 32)
  | filterEvent (event : BitVec 32)
  | setActionState (row cnt state : BitVec 32)
  | objectParam (id : BitVec 32) (line sel value aux : BitVec 16)

section Requests

variable {Dev Card : Type*} [DecidableEq Dev] (mailbox : MailboxOp → Card → Option Card)

/-! ### Rows -/

/-- A row of zeros. -/
def Row.blank : Row Dev := ⟨0, ∅, ⟨0, 0, 0⟩, 0⟩

/-- A row that is cleared: the devices stay connected. -/
def Row.cleared (r : Row Dev) : Row Dev := ⟨0, r.devMask, ⟨0, 0, 0⟩, 0⟩

/-- A row with another control word. -/
def Row.setControl (r : Row Dev) (cw : BitVec 16) : Row Dev :=
  { r with action := { r.action with uControl := cw } }

namespace Module

variable (m : Module Dev Card)

/-- Row `an` is changed. -/
def modify (an : ℕ) (f : Row Dev → Row Dev) : Module Dev Card :=
  { m with rows := update m.rows an (f (m.rows an)) }

/-- A mailbox transaction. -/
def send (op : MailboxOp) : Option (Module Dev Card) :=
  (mailbox op m.card).map fun card => { m with card := card }

/-- `ObjById`. -/
def objById (id : BitVec 32) : Option ℕ := (List.range m.size).find? fun i => id = (m.rows i).id

end Module

/-! ### Interrupts -/

/-- What `EnableBusInterrupt` does to a row. -/
def enabledRow (r : Row Dev) : Row Dev :=
  let cw := r.action.uControl
  if cwIntGet cw &&& doInterrupt = 0 then r.setControl (cwIntSet cw doInterrupt)
  else if cwIntGet cw = doInterrupt ∧ cwStateGet cw ≠ 0 then r.setControl (cwStateClr cw)
  else r

/-- `EnableBusInterrupt`. -/
def enableBusInterrupt (an : ℕ) (m : Module Dev Card) : Option (Module Dev Card) :=
  let cw := (m.rows an).action.uControl
  let m' := m.modify an enabledRow
  if cwIntGet cw &&& doInterrupt = 0 then m'.send mailbox (.setActionState an 1 Tg8INTERRUPT)
  else if cwIntGet cw = doInterrupt ∧ cwStateGet cw ≠ 0 then
    m'.send mailbox (.setActionState an 1 Tg8ENABLED)
  else some m'

/-- What `ClearBusInterrupt` does to a row. -/
def clearedRow (r : Row Dev) : Row Dev :=
  let cw := r.action.uControl
  if cwIntGet cw &&& doInterrupt = 0 then r
  else if cwIntGet cw &&& doOutput ≠ 0 then r.setControl (cwIntSet (cwIntClr cw) doOutput)
  else r.setControl (cwStateSet cw 1)

/-- `ClearBusInterrupt`. -/
def clearBusInterrupt (an : ℕ) (m : Module Dev Card) : Option (Module Dev Card) :=
  let cw := (m.rows an).action.uControl
  let m' := m.modify an clearedRow
  if cwIntGet cw &&& doInterrupt = 0 then some m'
  else if cwIntGet cw &&& doOutput ≠ 0 then
    m'.send mailbox (.setActionState an 1 Tg8NO_INTERRUPT)
  else m'.send mailbox (.setActionState an 1 Tg8DISABLED)

/-- The device is connected to a row. -/
def attach (d : Dev) (an : ℕ) (m : Module Dev Card) : Option (Module Dev Card) :=
  enableBusInterrupt mailbox an (m.modify an fun r => { r with devMask := insert d r.devMask })

/-- The device is not connected to a row any more; when there is no other one, the row makes no
interrupt. -/
def detach (d : Dev) (an : ℕ) (m : Module Dev Card) : Option (Module Dev Card) :=
  let m := m.modify an fun r => { r with devMask := r.devMask.erase d }
  if (m.rows an).devMask = ∅ then clearBusInterrupt mailbox an m else some m

/-! ### The user table -/

/-- `ClearUserTable`. -/
def clearUserTable (row rows : ℕ) (m : Module Dev Card) : Option (Module Dev Card) :=
  (m.send mailbox (.clearAction row rows)).map fun m =>
    { m with
      rows := fun i =>
        if row ≤ i ∧ i < row + rows then (m.rows i).cleared else m.rows i
      size := if m.size ≤ row + rows then row else m.size }

/-- The bits of a control word that are looked at to tell whether an action is there already: all but
the request of an interrupt, the state and the kind of line. -/
def sameMask : BitVec 16 := ~~~(cwPpmlSet (cwStateSet (cwIntSet 0 doInterrupt) 1) 3)

/-- The check of an action that is written. -/
def validAction (act : Tg8User) : Bool :=
  act.uControl &&& cwMask = act.uControl && act.uDelay ≠ 0xFFFF && act.uEvent ≠ 0 &&
    !(cwIntGet act.uControl = doInterrupt &&
      (act.uDelay ≠ 0 || act.uControl &&& sameMask ≠ 0))

/-- Both are the same action. -/
def sameAction (a act : Tg8User) : Bool :=
  a.uEvent = act.uEvent && sameMask &&& a.uControl = sameMask &&& act.uControl &&
    a.uDelay = act.uDelay

/-- The row of an action that is there already. -/
def Module.findAction (m : Module Dev Card) (act : Tg8User) : Option ℕ :=
  (List.range m.size).find? fun i =>
    (m.rows i).action.uEvent ≠ 0 && sameAction (m.rows i).action act

/-- The first row that is free, below the size of the table. -/
def Module.findHole (m : Module Dev Card) : Option ℕ :=
  (List.range m.size).find? fun i => (m.rows i).action.uEvent = 0

/-- The action wants an interrupt. -/
def doint (act : Tg8User) : Bool := cwIntGet act.uControl &&& doInterrupt ≠ 0

/-- The control word of an action that is there already, when `act` wants pulses and it makes none:
`res` goes into it. -/
def outputRow (act : Tg8User) (r : Row Dev) : Row Dev :=
  let old := cwIntGet r.action.uControl
  let res := if doint act then old ||| doOutput ||| doInterrupt else old ||| doOutput
  r.setControl (cwIntSet r.action.uControl res)

/-- The row makes pulses from now on, when `act` wants them. -/
def addOutput (act : Tg8User) (i : ℕ) (m : Module Dev Card) : Option (Module Dev Card) :=
  if cwIntGet act.uControl &&& doOutput ≠ 0 ∧
      cwIntGet (m.rows i).action.uControl &&& doOutput = 0 then
    let m := m.modify i (outputRow act)
    m.send mailbox (.setAction i (m.rows i).action)
  else some m

/-- An action that is there already: the device is connected when it wants an interrupt. -/
def writeKnown (d : Dev) (act : Tg8User) (i : ℕ) (m : Module Dev Card) :
    Option (Module Dev Card) :=
  if doint act then
    (addOutput mailbox act i (m.modify i fun r => { r with devMask := insert d r.devMask })).bind
      (enableBusInterrupt mailbox i)
  else addOutput mailbox act i m

/-- A new action. -/
def writeNew (d : Dev) (act : Tg8User) (m : Module Dev Card) : Option (Reply × Module Dev Card) :=
  if m.findHole = none ∧ m.size = tg8Actions then some (.ENOSPC, m)
  else
    let hole := m.findHole.getD m.size
    (m.send mailbox (.setAction hole act)).map fun m =>
      (.ok, { m.modify hole fun r => { r with
          action := act, devMask := insert d r.devMask, id := 0 } with
        size := if hole = m.size then m.size + 1 else m.size })

/-- One round of the loop of `Tg8DrvrWrite`. -/
def writeOne (d : Dev) (act : Tg8User) (m : Module Dev Card) :
    Option (Reply × Module Dev Card) :=
  if validAction act = false then some (.EINVAL, m)
  else
    match m.findAction act with
    | some i => (writeKnown mailbox d act i m).map (Prod.mk .ok)
    | none => writeNew mailbox d act m

/-- `Tg8DrvrWrite`. -/
def tg8DrvrWrite (d : Dev) : List Tg8User → Module Dev Card → Option (Reply × Module Dev Card)
  | [], m => some (.ok, m)
  | act :: actions, m => do
    match ← writeOne mailbox d act m with
    | (.ok, m) => tg8DrvrWrite d actions m
    | r => some r

/-! ### Opening and closing -/

/-- `Tg8DrvrOpen`. -/
def tg8DrvrOpen (d : Dev) (m : Module Dev Card) : Reply × Module Dev Card :=
  if d ∈ m.devMask then (.EBUSY, m) else (.ok, { m with devMask := insert d m.devMask })

/-- One round of the loop that releases the table. -/
def releaseRow (d : Dev) (an : ℕ) (m : Module Dev Card) : Option (Module Dev Card) :=
  if (m.rows an).action.uEvent = 0 ∨ d ∉ (m.rows an).devMask then some m
  else detach mailbox d an m

/-- The switch over the close mode, as far as it is about the table. -/
def onClose (mode : OnCloseMode) (m : Module Dev Card) : Option (Module Dev Card) :=
  if mode = .CLEAR then clearUserTable mailbox 0 m.size m else some m

/-- `Tg8DrvrClose`. -/
def tg8DrvrClose (d : Dev) (mode : OnCloseMode) (m : Module Dev Card) :
    Option (Reply × Module Dev Card) :=
  if d ∉ m.devMask then some (.EBADF, m)
  else
    let m := { m with devMask := m.devMask.erase d }
    ((onClose mailbox mode m).bind (loop (releaseRow mailbox d) tg8Actions)).map (Prod.mk .ok)

/-! ### Ranges of rows -/

/-- The test of a range of rows, which is counted from one.  The sum is one of unsigned words. -/
def validRange (row rows : BitVec 32) : Bool :=
  row ≠ 0 && row.toNat < tg8Actions && (row + rows - 1).toNat < tg8Actions

/-- `ChangeActionState`. -/
def changeActionState (row rows : ℕ) (state : BitVec 32) (m : Module Dev Card) :
    Option (Module Dev Card) :=
  let m := { m with
    rows := fun i =>
      if row ≤ i ∧ i < row + rows then
        let cw := cwStateClr (m.rows i).action.uControl
        (m.rows i).setControl
          (if state = Tg8DISABLED ∨ state = Tg8PPMT_DISABLED then cwStateSet cw 1 else cw)
      else m.rows i }
  m.send mailbox (.setActionState row rows state)

/-- The case `Tg8DrvrSET_ACTION_STATE`.  A count below zero changes no row of the table. -/
def setActionState (row cnt state : BitVec 32) (m : Module Dev Card) :
    Option (Reply × Module Dev Card) :=
  if validRange row cnt = false then some (.EINVAL, m)
  else (changeActionState mailbox (row.toNat - 1) cnt.toInt.toNat state m).map (Prod.mk .ok)

/-- The case `Tg8DrvrCLEAR_ACTION`.  A count below zero runs over the memory, and ends the model. -/
def clearAction (row cnt : BitVec 32) (m : Module Dev Card) : Option (Reply × Module Dev Card) :=
  if validRange row cnt = false then some (.EINVAL, m)
  else if cnt.toInt < 0 then none
  else (clearUserTable mailbox (row.toNat - 1) cnt.toNat m).map (Prod.mk .ok)

/-! ### Timing objects -/

/-- The search for free rows, from row `i` on: where it ends, how many of the `k` rows it has found,
and where they begin. -/
def findRun (free : ℕ → Bool) (k : ℕ) : (left i an : ℕ) → (j : Option ℕ) → ℕ × ℕ × Option ℕ
  | 0, i, an, j => (i, an, j)
  | left + 1, i, an, j =>
    if free i = false then findRun free k left (i + 1) 0 none
    else if an + 1 = k then (i, an + 1, j.or (some i))
    else findRun free k left (i + 1) (an + 1) (j.or (some i))

/-- The place for an object with `k` lines. -/
def Module.findPlace (m : Module Dev Card) (k : ℕ) : Option ℕ :=
  let r := findRun (fun i => (m.rows i).action.uEvent = 0) k m.size 0 0 none
  let j := r.2.2.getD r.1
  if r.2.1 < k ∧ tg8Actions < j + k then none else some j

/-- The unit as it is sent: without a condition it has one line. -/
def Tg8PpmUser.simple (ppm : Tg8PpmUser) : Tg8PpmUser :=
  if ppm.machine = 0 then { ppm with dim := 1, groupNum := 0, groupType := 0 } else ppm

/-- The check of an object. -/
def validObject (ppm : Tg8PpmUser) : Bool :=
  (ppm.machine = 0 || (ppm.machine.toNat < tg8Machines && ppm.groupType.toNat ≤ tg8GtBit)) &&
    ppm.simple.dim.toNat ≤ tg8PpmLines && 0 < ppm.simple.dim.toNat

/-- Line `i` of an object in the table. -/
def lineAction (ppm : Tg8PpmUser) (i : ℕ) : Tg8User where
  uEvent := ppm.trigger
  uControl := cwPpmlSet (cwPpmlClr (ppm.lineCw i)) (if i = 0 then tmPpm else tmLine)
  uDelay := ppm.lineDelay i

/-- The case `Tg8DrvrSET_OBJECT`. -/
def setObject (d : Dev) (oid : BitVec 32) (ppm : Tg8PpmUser) (m : Module Dev Card) :
    Option (Reply × Module Dev Card) :=
  if (m.objById oid).isSome ∨ validObject ppm = false then some (.EINVAL, m)
  else
    let ppm := ppm.simple
    let k := ppm.dim.toNat
    match m.findPlace k with
    | none => some (.ENOSPC, m)
    | some row =>
      (m.send mailbox (.setPpmAction row ppm)).map fun m =>
        (.ok, { m with
          rows := fun i =>
            if row ≤ i ∧ i < row + k then
              { id := oid, devMask := {d}, action := lineAction ppm (i - row)
                dim := if i = row then ppm.dim else (m.rows i).dim }
            else m.rows i
          size := max m.size (row + k) })

/-- The case `Tg8DrvrREMOVE_OBJECT`. -/
def removeObject (id : BitVec 32) (m : Module Dev Card) : Option (Reply × Module Dev Card) :=
  match m.objById id with
  | none => some (.EINVAL, m)
  | some an => (clearUserTable mailbox an (m.rows an).dim.toNat m).map (Prod.mk .ok)

/-- One round of the loop of `Tg8DrvrCONNECT`, for line `i` of the object in row `an`. -/
def connectRow (d : Dev) (an : ℕ) (mask : BitVec 32) (i : ℕ) (m : Module Dev Card) :
    Option (Module Dev Card) :=
  if mask.getLsbD i then attach mailbox d (an + i) m else detach mailbox d (an + i) m

/-- The case `Tg8DrvrCONNECT`. -/
def connect (d : Dev) (id mask : BitVec 32) (m : Module Dev Card) :
    Option (Reply × Module Dev Card) :=
  match m.objById id with
  | none => some (.EINVAL, m)
  | some an =>
    (loop (connectRow mailbox d an mask) (m.rows an).dim.toNat m).map (Prod.mk .ok)

/-- `Match`: the bytes are the same where the template has no wildcard. -/
def «match» (tem ev : BitVec 32) : Bool :=
  tem = ev || (List.range 4).all fun k =>
    tem.extractLsb' (8 * k) 8 = 0xFF || tem.extractLsb' (8 * k) 8 = ev.extractLsb' (8 * k) 8

/-- One round of the loop of `Tg8DrvrFILTER_EVENT`. -/
def filterRow (d : Dev) (event : BitVec 32) (an : ℕ) (m : Module Dev Card) :
    Option (Module Dev Card) :=
  if (m.rows an).action.uEvent = 0 then some m
  else if «match» event (m.rows an).action.uEvent then attach mailbox d an m
  else detach mailbox d an m

/-- The case `Tg8DrvrFILTER_EVENT`. -/
def filterEvent (d : Dev) (event : BitVec 32) (m : Module Dev Card) :
    Option (Reply × Module Dev Card) :=
  (loop (filterRow mailbox d event) m.size m).map (Prod.mk .ok)

/-- The row of a line of the object in row `an`; line 0 is the first row. -/
def lineRow (an : ℕ) (line : BitVec 16) : ℕ := if line = 0 then an else an + (line.toNat - 1)

/-- The state that a line is to have, or with line 0 the whole object. -/
def lineState (line value : BitVec 16) : BitVec 32 :=
  if value ≠ 0 then if line ≠ 0 then Tg8ENABLED else Tg8PPMT_ENABLED
  else if line ≠ 0 then Tg8DISABLED else Tg8PPMT_DISABLED

/-- The delay of a row, and its clock if there is one. -/
def delayedRow (value aux : BitVec 16) (r : Row Dev) : Row Dev :=
  { r with action :=
    { r.action with
      uDelay := value
      uControl :=
        if aux ≠ 0 then cwClockSet (cwClockClr r.action.uControl) (aux &&& 3)
        else r.action.uControl } }

/-- `Tg8SEL_STATE` and `Tg8SEL_DELAY`. -/
def selState : BitVec 16 := 1
def selDelay : BitVec 16 := 2

/-- The switch of `Tg8DrvrOBJECT_PARAM`. -/
def setParam (an : ℕ) (line sel value aux : BitVec 16) (m : Module Dev Card) :
    Option (Reply × Module Dev Card) :=
  if sel = selState then
    (changeActionState mailbox an 1 (lineState line value) m).map (Prod.mk .ok)
  else if sel = selDelay then
    (m.send mailbox (.setActionDelay an 1 value aux)).map fun m =>
      (.ok, m.modify an (delayedRow value aux))
  else some (.EINVAL, m)

/-- The case `Tg8DrvrOBJECT_PARAM`. -/
def objectParam (id : BitVec 32) (line sel value aux : BitVec 16) (m : Module Dev Card) :
    Option (Reply × Module Dev Card) :=
  match m.objById id with
  | none => some (.EINVAL, m)
  | some an =>
    if (m.rows an).dim.toNat < line.toNat then some (.EINVAL, m)
    else setParam mailbox (lineRow an line) line sel value aux m

/-- What the driver does with a request of device `d`. -/
def serve (d : Dev) : Request → Module Dev Card → Option (Reply × Module Dev Card)
  | .open, m => some (tg8DrvrOpen d m)
  | .close mode, m => tg8DrvrClose mailbox d mode m
  | .write actions, m => tg8DrvrWrite mailbox d actions m
  | .clearAction row cnt, m => clearAction mailbox row cnt m
  | .setObject id ppm, m => setObject mailbox d id ppm m
  | .removeObject id, m => removeObject mailbox id m
  | .connect id mask, m => connect mailbox d id mask m
  | .filterEvent event, m => filterEvent mailbox d event m
  | .setActionState row cnt state, m => setActionState mailbox row cnt state m
  | .objectParam id line sel value aux, m => objectParam mailbox id line sel value aux m

/-- A module that has just been installed. -/
def installed (card : Card) : Module Dev Card where
  devMask := ∅
  size := 0
  rows := fun _ => .blank
  card := card

end Requests

/-- A module that answers everything. -/
def answering : MailboxOp → Unit → Option Unit := fun _ card => some card

/-! ### What the requests do to the table -/

section Specs

variable {Dev Card : Type*} {mailbox : MailboxOp → Card → Option Card}
  {m m' : Module Dev Card} {d : Dev} {an : ℕ}

/-- Only row `an` has changed, and what the module itself holds. -/
def Module.Rewrites (m m' : Module Dev Card) (an : ℕ) (g : Row Dev → Row Dev) : Prop :=
  ∃ card, m' = { m.modify an g with card := card }

theorem Module.modify_modify (m : Module Dev Card) (an : ℕ) (f g : Row Dev → Row Dev) :
    (m.modify an f).modify an g = m.modify an fun r => g (f r) := by
  simp [Module.modify]

theorem send_eq {op : MailboxOp} (h : m.send mailbox op = some m') :
    ∃ card, m' = { m with card := card } := by
  simp only [Module.send, Option.map_eq_some_iff] at h
  obtain ⟨card, -, rfl⟩ := h
  exact ⟨card, rfl⟩

theorem Module.rewrites_self {g : Row Dev → Row Dev} (hg : g (m.rows an) = m.rows an) :
    m.Rewrites m an g :=
  ⟨m.card, by simp [Module.modify, hg]⟩

theorem Module.Rewrites.congr {f g : Row Dev → Row Dev} (h : m.Rewrites m' an f)
    (hfg : g (m.rows an) = f (m.rows an)) : m.Rewrites m' an g := by
  obtain ⟨card, rfl⟩ := h
  exact ⟨card, by simp [Module.modify, hfg]⟩

theorem Module.Rewrites.after {f g : Row Dev → Row Dev} (h : (m.modify an f).Rewrites m' an g) :
    m.Rewrites m' an fun r => g (f r) := by
  obtain ⟨card, rfl⟩ := h
  exact ⟨card, by rw [Module.modify_modify]⟩

theorem loop_rewrites {f : ℕ → Module Dev Card → Option (Module Dev Card)}
    {g : ℕ → Row Dev → Row Dev}
    (hstep : ∀ i t t', f i t = some t' → t.Rewrites t' (an + i) (g i)) {n : ℕ}
    (h : loop f n m = some m') :
    (∀ j, m'.rows j = if an ≤ j ∧ j < an + n then g (j - an) (m.rows j) else m.rows j) ∧
      m'.size = m.size ∧ m'.devMask = m.devMask := by
  refine ⟨@loop_cells _ _ _ Module.rows g an n m m' h fun i t t' ht => ?_, ?_⟩
  · obtain ⟨card, rfl⟩ := hstep i t t' ht
    rfl
  · refine loop_invariant (P := fun _ t => t.size = m.size ∧ t.devMask = m.devMask) h ⟨rfl, rfl⟩ ?_
    rintro i - t t' hp ht
    obtain ⟨card, rfl⟩ := hstep i t t' ht
    exact hp

theorem enableBusInterrupt_rewrites (h : enableBusInterrupt mailbox an m = some m') :
    m.Rewrites m' an enabledRow := by
  simp only [enableBusInterrupt] at h
  split_ifs at h
  · exact send_eq h
  · exact send_eq h
  · exact ⟨m.card, (Option.some.inj h).symm⟩

theorem clearBusInterrupt_rewrites (h : clearBusInterrupt mailbox an m = some m') :
    m.Rewrites m' an clearedRow := by
  simp only [clearBusInterrupt] at h
  split_ifs at h
  · exact ⟨m.card, (Option.some.inj h).symm⟩
  · exact send_eq h
  · exact send_eq h

variable [DecidableEq Dev]

/-- A row that `d` is connected to. -/
def attachedRow (d : Dev) (r : Row Dev) : Row Dev :=
  enabledRow { r with devMask := insert d r.devMask }

/-- A row that `d` is not connected to any more. -/
def detachedRow (d : Dev) (r : Row Dev) : Row Dev :=
  if r.devMask.erase d = ∅ then clearedRow { r with devMask := r.devMask.erase d }
  else { r with devMask := r.devMask.erase d }

theorem attach_rewrites (h : attach mailbox d an m = some m') : m.Rewrites m' an (attachedRow d) :=
  (enableBusInterrupt_rewrites h).after

theorem detach_rewrites (h : detach mailbox d an m = some m') :
    m.Rewrites m' an (detachedRow d) := by
  have hself : ((m.modify an fun r => { r with devMask := r.devMask.erase d }).rows an).devMask =
      (m.rows an).devMask.erase d := by
    simp [Module.modify]
  simp only [detach, hself] at h
  split_ifs at h with hnone
  · exact (clearBusInterrupt_rewrites h).after.congr (if_pos hnone)
  · obtain rfl := Option.some.inj h
    exact ⟨m.card, by simp [Module.modify, detachedRow, hnone]⟩

/-- What `addOutput` does to a row. -/
def addedRow (act : Tg8User) (r : Row Dev) : Row Dev :=
  if cwIntGet act.uControl &&& doOutput ≠ 0 ∧ cwIntGet r.action.uControl &&& doOutput = 0 then
    outputRow act r
  else r

/-- What `writeKnown` does to a row. -/
def knownRow (d : Dev) (act : Tg8User) (r : Row Dev) : Row Dev :=
  if doint act then enabledRow (addedRow act { r with devMask := insert d r.devMask })
  else addedRow act r

omit [DecidableEq Dev] in
theorem addOutput_rewrites {act : Tg8User} (h : addOutput mailbox act an m = some m') :
    m.Rewrites m' an (addedRow act) := by
  simp only [addOutput] at h
  split_ifs at h with hout
  · have hrow : m.Rewrites m' an (outputRow act) := send_eq h
    exact hrow.congr (if_pos hout)
  · obtain rfl := Option.some.inj h
    exact m.rewrites_self (if_neg hout)

theorem writeKnown_rewrites {act : Tg8User} (h : writeKnown mailbox d act an m = some m') :
    m.Rewrites m' an (knownRow d act) := by
  simp only [writeKnown] at h
  split_ifs at h with hint
  · obtain ⟨t, ht, h⟩ := Option.bind_eq_some_iff.1 h
    obtain ⟨card, rfl⟩ := (addOutput_rewrites ht).after
    obtain ⟨card', rfl⟩ := enableBusInterrupt_rewrites h
    refine ⟨card', ?_⟩
    simp [Module.modify, knownRow, hint]
  · obtain ⟨card, rfl⟩ := addOutput_rewrites h
    refine ⟨card, ?_⟩
    simp [Module.modify, knownRow, hint]

omit [DecidableEq Dev] in
theorem clearUserTable_eq {row rows : ℕ} (h : clearUserTable mailbox row rows m = some m') :
    ∃ card, m' = { m with
      rows := fun i => if row ≤ i ∧ i < row + rows then (m.rows i).cleared else m.rows i
      size := if m.size ≤ row + rows then row else m.size
      card := card } := by
  obtain ⟨t, ht, rfl⟩ := Option.map_eq_some_iff.1 h
  obtain ⟨card, rfl⟩ := send_eq ht
  exact ⟨card, rfl⟩

/-- A row with a new action. -/
def newRow (d : Dev) (act : Tg8User) (r : Row Dev) : Row Dev :=
  { r with action := act, devMask := insert d r.devMask, id := 0 }

theorem writeNew_eq {act : Tg8User} {rep : Reply}
    (h : writeNew mailbox d act m = some (rep, m')) :
    m' = m ∨ ∃ hole card, (m.findHole = some hole ∨ hole = m.size ∧ m.size ≠ tg8Actions) ∧
      m' = { m.modify hole (newRow d act) with
        size := if hole = m.size then m.size + 1 else m.size
        card := card } := by
  simp only [writeNew] at h
  split_ifs at h with hfull
  · exact .inl (Prod.mk.inj (Option.some.inj h)).2.symm
  · obtain ⟨t, ht, heq⟩ := Option.map_eq_some_iff.1 h
    obtain ⟨card, rfl⟩ := send_eq ht
    refine .inr ⟨m.findHole.getD m.size, card, ?_, (Prod.mk.inj heq).2.symm⟩
    cases hhole : m.findHole with
    | none => exact .inr ⟨rfl, fun heq => hfull ⟨hhole, heq⟩⟩
    | some hole => exact .inl rfl

theorem tg8DrvrWrite_keeps {P : Module Dev Card → Prop}
    (hone : ∀ act rep m m', P m → writeOne mailbox d act m = some (rep, m') → P m')
    {actions : List Tg8User} {rep : Reply} (hm : P m)
    (h : tg8DrvrWrite mailbox d actions m = some (rep, m')) : P m' := by
  induction actions generalizing m with
  | nil =>
    simp only [tg8DrvrWrite, Option.some.injEq, Prod.mk.injEq] at h
    exact h.2 ▸ hm
  | cons act actions ih =>
    simp only [tg8DrvrWrite, Option.bind_eq_bind, Option.bind_eq_some_iff] at h
    obtain ⟨⟨rep', t⟩, ht, h⟩ := h
    have hp : P t := hone act rep' m t hm ht
    cases rep' with
    | ok => exact ih hp h
    | EINVAL | ENOSPC | EBUSY | EBADF =>
      obtain ⟨-, rfl⟩ := Prod.mk.inj (Option.some.inj h)
      exact hp

/-- What closing `d` does to a row. -/
def releasedRow (d : Dev) (r : Row Dev) : Row Dev :=
  if r.action.uEvent = 0 ∨ d ∉ r.devMask then r else detachedRow d r

theorem releaseRow_rewrites (h : releaseRow mailbox d an m = some m') :
    m.Rewrites m' an (releasedRow d) := by
  simp only [releaseRow] at h
  split_ifs at h with hskip
  · obtain rfl := Option.some.inj h
    exact m.rewrites_self (if_pos hskip)
  · exact (detach_rewrites h).congr (if_neg hskip)

/-- What line `i` of an object is connected to. -/
def connectedRow (d : Dev) (mask : BitVec 32) (i : ℕ) (r : Row Dev) : Row Dev :=
  if mask.getLsbD i then attachedRow d r else detachedRow d r

theorem connectRow_rewrites {mask : BitVec 32} {i : ℕ}
    (h : connectRow mailbox d an mask i m = some m') :
    m.Rewrites m' (an + i) (connectedRow d mask i) := by
  simp only [connectRow] at h
  split_ifs at h with hbit
  · exact (attach_rewrites h).congr (if_pos hbit)
  · exact (detach_rewrites h).congr (if_neg hbit)

/-- What a filter does to a row. -/
def filteredRow (d : Dev) (event : BitVec 32) (r : Row Dev) : Row Dev :=
  if r.action.uEvent = 0 then r
  else if «match» event r.action.uEvent then attachedRow d r
  else detachedRow d r

theorem filterRow_rewrites {event : BitVec 32} (h : filterRow mailbox d event an m = some m') :
    m.Rewrites m' an (filteredRow d event) := by
  simp only [filterRow] at h
  split_ifs at h with hfree hmatch
  · obtain rfl := Option.some.inj h
    exact m.rewrites_self (if_pos hfree)
  · exact (attach_rewrites h).congr (by rw [filteredRow, if_neg hfree, if_pos hmatch])
  · exact (detach_rewrites h).congr (by rw [filteredRow, if_neg hfree, if_neg hmatch])

/-- A row of a new object. -/
def objectRow (d : Dev) (oid : BitVec 32) (ppm : Tg8PpmUser) (i : ℕ) (r : Row Dev) : Row Dev where
  id := oid
  devMask := {d}
  action := lineAction ppm i
  dim := if i = 0 then ppm.dim else r.dim

omit [DecidableEq Dev] in
theorem setObject_eq {oid : BitVec 32} {ppm : Tg8PpmUser} {rep : Reply}
    (h : setObject mailbox d oid ppm m = some (rep, m')) :
    m' = m ∨ ∃ row card, validObject ppm = true ∧ m.findPlace ppm.simple.dim.toNat = some row ∧
      m' = { m with
        rows := fun i =>
          if row ≤ i ∧ i < row + ppm.simple.dim.toNat then
            objectRow d oid ppm.simple (i - row) (m.rows i)
          else m.rows i
        size := max m.size (row + ppm.simple.dim.toNat)
        card := card } := by
  simp only [setObject] at h
  split_ifs at h with hbad
  · exact .inl (Prod.mk.inj (Option.some.inj h)).2.symm
  · split at h
    · exact .inl (Prod.mk.inj (Option.some.inj h)).2.symm
    · rename_i row hplace
      obtain ⟨t, ht, heq⟩ := Option.map_eq_some_iff.1 h
      obtain ⟨card, rfl⟩ := send_eq ht
      refine .inr ⟨row, card, by simpa using fun hv => hbad (.inr hv), hplace, ?_⟩
      rw [← (Prod.mk.inj heq).2]
      congr 1
      funext i
      by_cases hi : row ≤ i ∧ i < row + ppm.simple.dim.toNat
      · have hfirst : i = row ↔ i - row = 0 := by omega
        simp only [if_pos hi, objectRow, hfirst]
      · simp only [if_neg hi]

end Specs

end KernelModules.Tg8.Driver
