import Mathlib.Tactic
import KernelModules.Tg8.BlockTransfers
import KernelModules.Tg8.UtcTime
import KernelModules.Lib.AssociativeMemory
import KernelModules.Lib.BitField
import KernelModules.Lib.Transition

/-!
# Matching the triggers of a TG8

The firmware keeps the trigger of each enabled action in a content-addressable memory, and a received
frame is looked up there once for each combination of wildcards that is in use for its header and its
event code.  Outputs are started by the AT-process and immediate actions by the IMM-process.

* `insertAction`, `clearUserTable`, `setState`, `setDelay`, `setGate` and `setDim` are what the mailbox
  does to the table, the memory and the usage tables, and `serveTable` is its switch;
* `atMatches` and `immMatches` look a frame up, and `queued` is what the interrupt routine lets through;
* `EventProgram.Kept` is the invariant of all of them, `Kept.step` that a step keeps it;
* `atProcess_startsRight` and `immProcess_startsRight` say that exactly the waiting actions are started,
  `served_of_waits` that no frame is dropped for which one waits, `enabled_accepted` that the
  configuration of an enabled row is that of its control word, `serveTable_confined` that a request
  stays within its rows; `setState_takesEffect` and `clearUserTable_startsNothing` are what switching
  rows on or off and clearing them all does to the frames that follow.

Left out are PPM timings, the recordings, and the header that a request leaves in its block.
-/

namespace KernelModules.Tg8.Firmware

open Function KernelModules.Lib KernelModules.Tg8.Driver

/-! ### Frames -/

/-- The bytes behind the header, from the last one on. -/
def wildByte (k : Fin 3) (frame : BitVec 32) : Byte := frame.extractLsb' (8 * k) 8

/-- `Any.Byte_2`, the event code, `Any.Byte_3` and `Any.Byte_4`. -/
def byte2 (frame : BitVec 32) : Byte := frame.extractLsb' 16 8
def byte3 (frame : BitVec 32) : Byte := frame.extractLsb' 8 8
def byte4 (frame : BitVec 32) : Byte := frame.extractLsb' 0 8

/-- `Tg8DONT_CARE`. -/
def dontCare : Byte := 0xFF

/-- `wild_c`. -/
def wildC : Fin 8 → BitVec 32 :=
  ![0x000000, 0x0000ff, 0x00ff00, 0x00ffff, 0xff0000, 0xff00ff, 0xffff00, 0xffffff]

/-- The combination of wildcards of a trigger, `j` in `InsertAction`. -/
def wildcards (trigger : BitVec 32) : Fin 8 :=
  (if byte2 trigger = dontCare then 4 else 0) + (if byte3 trigger = dontCare then 2 else 0) +
    (if byte4 trigger = dontCare then 1 else 0)

/-- What a trigger stands for: each of its last three bytes is the frame's, or matters not. -/
structure Matches (trigger frame : BitVec 32) : Prop where
  header : header trigger = header frame
  bytes : ∀ k, wildByte k trigger = wildByte k frame ∨ wildByte k trigger = dontCare

/-- None of the last three bytes of a frame is a wildcard itself. -/
def Plain (frame : BitVec 32) : Prop := ∀ k, wildByte k frame ≠ dontCare

/-! ### Rows -/

/-- The row is an output, `CntControl & ConfOUTPUT`, and not an immediate action. -/
def output (a : Tg8Action) : Bool := a.cntControl &&& confOUTPUT ≠ 0

/-- `Enabled & Tg8ENABLED`. -/
def enabled (a : Tg8Action) : Bool := a.enabled &&& (1 : Byte) ≠ 0

/-- What the memory holds for a row that is enabled: its trigger, and the last word of its kind. -/
def camEntry (a : Tg8Action) : BitVec 32 × BitVec 16 := (a.user.uEvent, if output a then 0xFF else 0)

/-- A row with nothing in it. -/
def emptyRow : Tg8Action := ⟨⟨0, 0, 0⟩, ⟨0, 0, 0⟩, 0, 0, 0, ⟨0, 0, 0, 0, 0, 0⟩⟩

/-- `CntNum` of a control word. -/
def counterOf (cw : BitVec 16) : Byte :=
  (if cwCntGet cw = 0 then 7 else cwCntGet cw - 1).setWidth 8

/-- What a refused action leaves in its row. -/
def refusedRow (action : Tg8User) : Tg8Action :=
  { emptyRow with
    user := action
    cntControl := (getXConfiguration action.uControl).toOption.getD 0
    cntNum := counterOf action.uControl
    enabled := 2 }

/-! ### The usage tables -/

/-- One half of `in_use`: the usage flags of the event codes, and the combinations of wildcards of the
headers, of the event codes with outputs and of those with immediate actions. -/
structure Usage where
  event : Byte → Byte
  headerWc : Byte → Byte
  wc : Byte → Byte
  wcImm : Byte → Byte

/-- `in_use`. -/
structure InUse where
  simple : Usage
  time : Usage

/-- The half that is for a header. -/
def InUse.usage (u : InUse) (h : Byte) : Usage := if h ≠ 0x01 then u.simple else u.time

/-- The usage flag of a header: that of its machine, or `MILLISECOND_EVENT_INDEX`. -/
def eventFlag (h : Byte) : Byte := if h ≠ 0x01 then (1 : Byte) <<< (h >>> 4) else (1 : Byte) <<< 1

/-- The event codes that a trigger is for. -/
def ServesCode (trigger : BitVec 32) (code : Byte) : Prop :=
  byte2 trigger = dontCare ∨ code = byte2 trigger

instance (trigger : BitVec 32) (code : Byte) : Decidable (ServesCode trigger code) :=
  inferInstanceAs (Decidable (byte2 trigger = dontCare ∨ code = byte2 trigger))

/-- The entries of the codes that a trigger is for get the bits of `m`. -/
def orCodes (trigger : BitVec 32) (m : Byte) (t : Byte → Byte) : Byte → Byte := fun code =>
  if ServesCode trigger code then t code ||| m else t code

/-- What `InsertAction` notes of a trigger. -/
def Usage.note (u : Usage) (trigger : BitVec 32) (out : Bool) : Usage :=
  let wm : Byte := BitVec.twoPow 8 (wildcards trigger)
  { event := orCodes trigger (eventFlag (header trigger)) u.event
    headerWc := update u.headerWc (header trigger) (u.headerWc (header trigger) ||| wm)
    wc := if out then orCodes trigger wm u.wc else u.wc
    wcImm := if out then u.wcImm else orCodes trigger wm u.wcImm }

def InUse.note (u : InUse) (trigger : BitVec 32) (out : Bool) : InUse :=
  if header trigger ≠ 0x01 then { u with simple := u.simple.note trigger out }
  else { u with time := u.time.note trigger out }

/-- Nothing is in use. -/
def Usage.empty : Usage := ⟨fun _ => 0, fun _ => 0, fun _ => 0, fun _ => 0⟩

def InUse.empty : InUse := ⟨.empty, .empty⟩

/-! ### The mailbox -/

/-- The table and the memory, `in_use`, and `eprog.Event`. -/
structure EventProgram extends Driver.Firmware where
  inUse : InUse
  event : BitVec 32

/-- How a request completes: with the row and the error in `aTrace` and `aCoco`, or without one. -/
abbrev Completion := Option (ℕ × InsertError)

/-- The rounds of a handler from row `addr` on, up to the first that is refused. -/
def rounds {σ : Type*} (f : ℕ → σ → σ × Option InsertError) (addr : ℕ) :
    (cnt k : ℕ) → σ → σ × Completion
  | 0, _, s => (s, none)
  | cnt + 1, k, s =>
    match f k s with
    | (s, none) => rounds f addr cnt (k + 1) s
    | (s, some e) => (s, some (addr + k, e))

/-- `InsertAction`, of an action that is not a PPM timing. -/
def insertAction (action : Tg8User) (addr : ℕ) (s : EventProgram) :
    EventProgram × Option InsertError :=
  match storedAction action with
  | .error e => ({ s with rows := update s.rows addr (refusedRow action) }, some e)
  | .ok row =>
    ({ s with
       rows := update s.rows addr row
       cam :=
         if cwPpmlGet row.user.uControl = tmLine then s.cam
         else update s.cam addr (if cwStateGet row.user.uControl = 0 then camEntry row else (0, 0))
       numOfAct := max s.numOfAct (addr + 1)
       inUse :=
         if cwPpmlGet row.user.uControl = tmLine then s.inUse
         else s.inUse.note row.user.uEvent (output row) }, none)

/-- `Tg8OP_SET_USER_TABLE`. -/
def setUserTable (mb : BlockData) (s : EventProgram) : EventProgram × Completion :=
  rounds (fun k => insertAction (userLayout.item mb.buff k) (mb.addr + k)) mb.addr mb.cnt 0 s

/-- A row and what the memory holds for it. -/
def EventProgram.put (s : EventProgram) (addr : ℕ) (row : Tg8Action) : EventProgram :=
  { s with rows := update s.rows addr row }

def EventProgram.insertCam (s : EventProgram) (addr : ℕ) (entry : BitVec 32 × BitVec 16) :
    EventProgram :=
  { s with cam := update s.cam addr entry }

/-- The loop of `Tg8OP_CLEAR_USER_TABLE`, and the row where it ends. -/
def clearLoop : (cnt addr : ℕ) → EventProgram → ℕ × EventProgram
  | 0, addr, s => (addr, s)
  | cnt + 1, addr, s =>
    if addr < s.numOfAct then
      clearLoop cnt (addr + 1) ((s.put addr emptyRow).insertCam addr (0, 0))
    else (addr, s)

/-- `Tg8OP_CLEAR_USER_TABLE`. -/
def clearUserTable (mb : BlockData) (s : EventProgram) : EventProgram :=
  let r := clearLoop mb.cnt mb.addr s
  if r.1 = r.2.numOfAct then
    { r.2 with
      numOfAct := mb.addr
      inUse := if mb.addr = 0 then .empty else r.2.inUse }
  else r.2

/-- `tab->State` and `tab->Aux`. -/
def stateAux (mb : BlockData) : BitVec 16 × BitVec 16 := (Layout.word.pair Layout.word).item mb.buff 0

/-- One round of `Tg8OP_SET_STATE`; the lines of a PPM timing stay out of the memory. -/
def setStateRow (state : BitVec 16) (addr : ℕ) (s : EventProgram) : EventProgram :=
  let a := s.rows addr
  let inPpm : Bool := cwPpmlGet a.user.uControl ≠ 0
  if state = 1 ∨ state = 5 then
    (if state = 1 ∧ inPpm then s else s.insertCam addr (camEntry a)).put addr
      { a with
        enabled := a.enabled ||| (1 : Byte)
        user := { a.user with uControl := cwStateClr a.user.uControl } }
  else if state = 0 ∨ state = 4 then
    (if state = 0 ∧ inPpm then s else s.insertCam addr (0, 0)).put addr
      { a with
        enabled := a.enabled &&& ~~~(1 : Byte)
        user := { a.user with uControl := cwStateSet a.user.uControl 1 } }
  else if state = 2 then
    s.put addr
      { a with
        cntControl := a.cntControl ||| 4
        user := { a.user with uControl := cwIntSet a.user.uControl doInterrupt } }
  else if state = 3 then
    s.put addr
      { a with
        cntControl := a.cntControl &&& ~~~4
        user := { a.user with uControl := a.user.uControl &&& ~~~(doInterrupt <<< 14) } }
  else s

/-- `Tg8OP_SET_STATE`. -/
def setState (mb : BlockData) (s : EventProgram) : EventProgram × Completion :=
  rounds (fun k s => (setStateRow (stateAux mb).1 (mb.addr + k) s, none)) mb.addr mb.cnt 0 s

/-- A row with another delay and, if there is one, another clock. -/
def delayRow (delay aux clock : BitVec 16) (a : Tg8Action) : Tg8Action :=
  { a with
    cntControl := a.cntControl &&& ~~~0x18 ||| clock
    user := { a.user with
      uControl := cwClockSet (cwClockClr a.user.uControl) aux
      uDelay := delay + 1 } }

/-- One round of `Tg8OP_SET_DELAY`.  The clock is cut to two bits in the request itself, so that a
multiple of four sets the first output to milliseconds and leaves the clocks of the others. -/
def setDelayRow (delay : BitVec 16) (addr : ℕ) (s : BitVec 16 × EventProgram) :
    (BitVec 16 × EventProgram) × Option InsertError :=
  let a := s.2.rows addr
  if output a then
    if delay = 0xFFFF then (s, some .Tg8ERR_WRONG_DELAY)
    else if s.1 ≠ 0 then
      match clockConfiguration (s.1 &&& 3) with
      | .error e => ((s.1 &&& 3, s.2), some e)
      | .ok clock => ((s.1 &&& 3, s.2.put addr (delayRow delay (s.1 &&& 3) clock a)), none)
    else ((s.1, s.2.put addr { a with user := { a.user with uDelay := delay + 1 } }), none)
  else (s, none)

/-- `Tg8OP_SET_DELAY`. -/
def setDelay (mb : BlockData) (s : EventProgram) : EventProgram × Completion :=
  let r := rounds (fun k => setDelayRow (stateAux mb).1 (mb.addr + k)) mb.addr mb.cnt 0
    ((stateAux mb).2, s)
  (r.1.2, r.2)

/-- `Tg8OP_SET_GATE`. -/
def setGate (mb : BlockData) (s : EventProgram) : EventProgram × Completion :=
  rounds (fun k s => (s.put (mb.addr + k)
    ((s.rows (mb.addr + k)).withGate (gateLayout.item mb.buff k)), none)) mb.addr mb.cnt 0 s

/-- `Tg8OP_SET_DIM`. -/
def setDim (mb : BlockData) (s : EventProgram) : EventProgram × Completion :=
  rounds (fun k s => (s.put (mb.addr + k)
    ((s.rows (mb.addr + k)).withDim (Layout.byte.item mb.buff k)), none)) mb.addr mb.cnt 0 s

/-- The operations that write to the table. -/
inductive TableOp
  | SET_USER_TABLE
  | CLEAR_USER_TABLE
  | SET_STATE
  | SET_DELAY
  | SET_GATE
  | SET_DIM

/-- The switch of `MbxProcess`. -/
def serveTable (mb : BlockData) (s : EventProgram) : TableOp → EventProgram × Completion
  | .SET_USER_TABLE => setUserTable mb s
  | .CLEAR_USER_TABLE => (clearUserTable mb s, none)
  | .SET_STATE => setState mb s
  | .SET_DELAY => setDelay mb s
  | .SET_GATE => setGate mb s
  | .SET_DIM => setDim mb s

/-! ### Received frames -/

/-- The combinations in a mask. -/
def fills (wildCard : Byte) : List (Fin 8) := (List.finRange 8).filter fun j => wildCard.getLsbD j

/-- The addresses that the searches for a frame report, `Matches` or `ImmMatches`. -/
def matchList (s : EventProgram) (frame : BitVec 32) (wildCard : Byte) (last : BitVec 16) : List ℕ :=
  camSearches tg8Actions s.cam (fun j => (frame ||| wildC j, last)) (fills wildCard)

/-- `StartActions` and `StartImmActions` pass those that are disabled. -/
def started (s : EventProgram) (ms : List ℕ) : List ℕ := ms.filter fun addr => enabled (s.rows addr)

/-- `WildCard`. -/
def EventProgram.wildCard (s : EventProgram) (frame : BitVec 32) : Byte :=
  (s.inUse.usage (header frame)).wc (byte2 frame) &&&
    (s.inUse.usage (header frame)).headerWc (header frame)

/-- `ImmWildCard`: the header is that of the event which the AT-process has looked up last. -/
def EventProgram.immWildCard (s : EventProgram) (frame : BitVec 32) : Byte :=
  (s.inUse.usage (header frame)).wcImm (byte2 frame) &&&
    (s.inUse.usage (header frame)).headerWc (header s.event)

def EventProgram.atMatches (s : EventProgram) (frame : BitVec 32) : List ℕ :=
  matchList s frame (s.wildCard frame) 0xFF

def EventProgram.immMatches (s : EventProgram) (frame : BitVec 32) : List ℕ :=
  matchList s frame (s.immWildCard frame) 0

/-- `AtProcess`: the last comparand stays in `eprog.Event`. -/
def atProcess (frame : BitVec 32) (s : EventProgram) : EventProgram :=
  { s with event := (fills (s.wildCard frame)).foldl (fun _ j => frame ||| wildC j) frame }

/-- What `Xr_Isr` lets through to the queues; `immSize` is whether immediate interrupts wait. -/
def queued (u : InUse) (immSize : Bool) (frame : BitVec 32) : Bool :=
  let h := header frame
  if h = 0x21 then false
  else if h = 0x01 then immSize || u.time.event (byte2 frame) &&& (1 <<< 1) ≠ 0
  else if h = 0xB5 ∨ h = 0xB6 then false
  else if h = 0x20 ∨ h = 0x24 then true
  else if h = 0x34 ∨ h = 0x44 ∨ h = 0x54 ∨ h = 0x14 then false
  else if h = 0x23 ∨ h = 0x13 ∨ h = 0x33 ∨ h = 0x43 ∨ h = 0x53 then false
  else if h >>> 4 = 2 then u.simple.event (byte2 frame) &&& (1 <<< 2) ≠ 0
  else true

/-- The headers that are never queued. -/
def unserved : List Byte :=
  [0x21, 0xB5, 0xB6, 0x34, 0x44, 0x54, 0x14, 0x23, 0x13, 0x33, 0x43, 0x53]

/-! ### Runs -/

/-- A request in the mailbox, or a frame that the AT-process takes from its queue. -/
inductive EventStep
  | mailbox (op : TableOp) (mb : BlockData)
  | frame (frame : BitVec 32)

def EventProgram.step (s : EventProgram) : EventStep → Option EventProgram
  | .mailbox op mb => some (serveTable mb s op).1
  | .frame frame => some (atProcess frame s)

/-- After `SoftInit`. -/
def softInit : EventProgram := ⟨⟨fun _ => emptyRow, fun _ => (0, 0), 0⟩, .empty, 0⟩

def eventPrograms : System EventProgram EventStep := System.ofFun (· = softInit) EventProgram.step

/-! ### Frames and wildcards -/

theorem frame_ext {x y : BitVec 32} (hheader : header x = header y)
    (hbytes : ∀ k, wildByte k x = wildByte k y) : x = y := by
  apply BitVec.eq_of_getLsbD_eq
  intro i hi
  have hbit : ∀ {start : ℕ}, x.extractLsb' start 8 = y.extractLsb' start 8 → start ≤ i →
      i < start + 8 → x.getLsbD i = y.getLsbD i := by
    intro start heq hlo hhi
    have hget := congrArg (BitVec.getLsbD · (i - start)) heq
    simp only [BitVec.getLsbD_extractLsb', show i - start < 8 by omega,
      show start + (i - start) = i by omega, decide_true, Bool.true_and] at hget
    exact hget
  by_cases hlast : i < 24
  · have hk : i / 8 < 3 := by omega
    exact hbit (hbytes ⟨i / 8, hk⟩) (by dsimp only; omega) (by dsimp only; omega)
  · exact hbit hheader (by omega) (by omega)

theorem wildC_bytes : ∀ j : Fin 8, header (wildC j) = 0 ∧
    ∀ k, wildByte k (wildC j) = if j.val.testBit k then dontCare else 0 := by decide

theorem header_or_wildC (frame : BitVec 32) (j : Fin 8) :
    header (frame ||| wildC j) = header frame := by
  rw [header, BitVec.extractLsb'_or]
  exact (congrArg (header frame ||| ·) (wildC_bytes j).1).trans BitVec.or_zero

theorem wildByte_or_wildC (frame : BitVec 32) (j : Fin 8) (k : Fin 3) :
    wildByte k (frame ||| wildC j) = if j.val.testBit k then dontCare else wildByte k frame := by
  rw [wildByte, BitVec.extractLsb'_or]
  refine (congrArg (wildByte k frame ||| ·) ((wildC_bytes j).2 k)).trans ?_
  cases j.val.testBit k
  · exact BitVec.or_zero
  · exact BitVec.or_allOnes

theorem testBit_wildcards (trigger : BitVec 32) (k : Fin 3) :
    (wildcards trigger).val.testBit k = decide (wildByte k trigger = dontCare) := by
  have hbits : ∀ (k : Fin 3) (c : Fin 3 → Bool),
      ((if c 2 = true then 4 else 0) + (if c 1 = true then 2 else 0) +
        (if c 0 = true then 1 else 0) : Fin 8).val.testBit k = c k := by decide
  have hk := hbits k fun k => decide (wildByte k trigger = dontCare)
  simp only [decide_eq_true_iff] at hk
  exact hk

/-- A frame is filled up to the trigger that it matches, with the wildcards of that trigger. -/
theorem Matches.fill {trigger frame : BitVec 32} (h : Matches trigger frame) :
    frame ||| wildC (wildcards trigger) = trigger := by
  apply frame_ext
  · rw [header_or_wildC, h.header]
  · intro k
    rw [wildByte_or_wildC, testBit_wildcards]
    by_cases hwild : wildByte k trigger = dontCare
    · rw [if_pos (decide_eq_true hwild), hwild]
    · rw [if_neg (by rwa [decide_eq_true_iff])]
      exact ((h.bytes k).resolve_right hwild).symm

theorem Matches.of_fill {trigger frame : BitVec 32} {j : Fin 8} (h : frame ||| wildC j = trigger) :
    Matches trigger frame := by
  subst h
  refine ⟨header_or_wildC frame j, fun k => ?_⟩
  rw [wildByte_or_wildC]
  cases j.val.testBit k
  · exact .inl rfl
  · exact .inr rfl

theorem fin_ext_testBit : ∀ j j' : Fin 8,
    (∀ k : Fin 3, j.val.testBit k = j'.val.testBit k) → j = j' := by decide

/-- A frame without wildcards is filled in differently with each combination. -/
theorem Plain.injective {frame : BitVec 32} (h : Plain frame) :
    Injective fun j => frame ||| wildC j := by
  intro j j' heq
  refine fin_ext_testBit j j' fun k => ?_
  have hk := congrArg (wildByte k) heq
  simp only [wildByte_or_wildC] at hk
  revert hk
  cases j.val.testBit k <;> cases j'.val.testBit k
  · exact fun _ => rfl
  · exact fun hk => absurd hk (h k)
  · exact fun hk => absurd hk.symm (h k)
  · exact fun _ => rfl

/-! ### What is noted of a trigger -/

/-- Every bit of one table of bytes is in another. -/
def Within (t t' : Byte → Byte) : Prop :=
  ∀ code i, (t code).getLsbD i = true → (t' code).getLsbD i = true

theorem within_orCodes (trigger : BitVec 32) (m : Byte) (t : Byte → Byte) :
    Within t (orCodes trigger m t) := by
  intro code i h
  rw [orCodes]
  split
  · rw [BitVec.getLsbD_or, h, Bool.true_or]
  · exact h

theorem within_update (t : Byte → Byte) (h m : Byte) : Within t (update t h (t h ||| m)) := by
  intro code i hbit
  by_cases hcode : code = h
  · rw [hcode, update_self, BitVec.getLsbD_or, ← hcode, hbit, Bool.true_or]
  · rwa [update_of_ne hcode]

/-- One half of the usage tables has every bit of another. -/
structure Usage.Within (u u' : Usage) : Prop where
  event : Firmware.Within u.event u'.event
  headerWc : Firmware.Within u.headerWc u'.headerWc
  wc : Firmware.Within u.wc u'.wc
  wcImm : Firmware.Within u.wcImm u'.wcImm

theorem Usage.Within.refl (u : Usage) : u.Within u :=
  ⟨fun _ _ h => h, fun _ _ h => h, fun _ _ h => h, fun _ _ h => h⟩

theorem Usage.within_note (u : Usage) (trigger : BitVec 32) (out : Bool) :
    u.Within (u.note trigger out) := by
  refine ⟨within_orCodes _ _ _, within_update _ _ _, ?_, ?_⟩
  · cases out
    · exact fun _ _ h => h
    · exact within_orCodes _ _ _
  · cases out
    · exact within_orCodes _ _ _
    · exact fun _ _ h => h

theorem InUse.within_note (u : InUse) (trigger : BitVec 32) (out : Bool) (h : Byte) :
    (u.usage h).Within ((u.note trigger out).usage h) := by
  rw [InUse.note]
  split <;> rw [InUse.usage, InUse.usage] <;> split
  · exact u.simple.within_note trigger out
  · exact .refl _
  · exact .refl _
  · exact u.time.within_note trigger out

/-- The usage tables know of a trigger, for an output or for an immediate action. -/
structure Noted (u : Usage) (trigger : BitVec 32) (out : Bool) : Prop where
  event : ∀ code, ServesCode trigger code → ∀ i, (eventFlag (header trigger)).getLsbD i = true →
    (u.event code).getLsbD i = true
  headerWc : (u.headerWc (header trigger)).getLsbD (wildcards trigger) = true
  codes : ∀ code, ServesCode trigger code →
    ((if out then u.wc else u.wcImm) code).getLsbD (wildcards trigger) = true

theorem Noted.mono {u u' : Usage} {trigger : BitVec 32} {out : Bool} (h : Noted u trigger out)
    (hu : u.Within u') : Noted u' trigger out := by
  refine ⟨fun code hcode i hi => hu.event _ _ (h.event code hcode i hi), hu.headerWc _ _ h.headerWc,
    fun code hcode => ?_⟩
  cases out
  · exact hu.wcImm _ _ (h.codes code hcode)
  · exact hu.wc _ _ (h.codes code hcode)

theorem orCodes_of_serves {trigger : BitVec 32} {code : Byte} (h : ServesCode trigger code) (m : Byte)
    (t : Byte → Byte) {i : ℕ} (hi : m.getLsbD i = true) :
    (orCodes trigger m t code).getLsbD i = true := by
  rw [orCodes, if_pos h, BitVec.getLsbD_or, hi, Bool.or_true]

theorem Usage.noted_note (u : Usage) (trigger : BitVec 32) (out : Bool) :
    Noted (u.note trigger out) trigger out := by
  have hwm : (BitVec.twoPow 8 (wildcards trigger)).getLsbD (wildcards trigger) = true := by
    rw [BitVec.getLsbD_twoPow, decide_eq_true (wildcards trigger).isLt, decide_eq_true rfl]
    rfl
  refine ⟨fun code hcode i hi => orCodes_of_serves hcode _ _ hi, ?_, fun code hcode => ?_⟩
  · show (update u.headerWc _ _ _).getLsbD _ = true
    rw [update_self, BitVec.getLsbD_or, hwm, Bool.or_true]
  · cases out
    · exact orCodes_of_serves hcode _ _ hwm
    · exact orCodes_of_serves hcode _ _ hwm

theorem InUse.noted_note (u : InUse) (trigger : BitVec 32) (out : Bool) :
    Noted ((u.note trigger out).usage (header trigger)) trigger out := by
  rw [InUse.note, InUse.usage]
  split
  · exact u.simple.noted_note trigger out
  · exact u.time.noted_note trigger out

/-! ### Control words and configurations -/

theorem field_or (x : BitVec 16) {c : BitVec 16} {k : ℕ} {m : BitVec 16} (h : (c >>> k) &&& m = 0#16) :
    ((x ||| c) >>> k) &&& m = (x >>> k) &&& m := by
  rw [BitVec.ushiftRight_or_distrib, BitVec.and_comm, BitVec.and_or_distrib_left, BitVec.and_comm m,
    BitVec.and_comm m (c >>> k), h, BitVec.or_zero]

theorem field_and_not (x : BitVec 16) {c : BitVec 16} {k : ℕ} {m : BitVec 16}
    (h : (~~~c >>> k) &&& m = m) : ((x &&& ~~~c) >>> k) &&& m = (x >>> k) &&& m := by
  rw [BitVec.ushiftRight_and_distrib, BitVec.and_assoc, h]

/-- What the interrupt field contributes to a configuration. -/
def intConfiguration (int : BitVec 16) : BitVec 16 :=
  (if int &&& doOutput ≠ 0 then confOUTPUT else 0) ||| (if int &&& doInterrupt ≠ 0 then 4 else 0)

theorem getXConfiguration_ok {cw config : BitVec 16} : getXConfiguration cw = .ok config ↔
    ∃ clock start, clockConfiguration (cwClockGet cw) = .ok clock ∧
      startConfiguration (cwStartGet cw) = .ok start ∧
      config = intConfiguration (cwIntGet cw) ||| clock ||| start := by
  rw [getXConfiguration]
  constructor
  · intro h
    cases hclock : clockConfiguration (cwClockGet cw) with
    | error e => rw [hclock] at h; cases h
    | ok clock =>
      cases hstart : startConfiguration (cwStartGet cw) with
      | error e => rw [hclock, hstart] at h; cases h
      | ok start =>
        rw [hclock, hstart] at h
        exact ⟨clock, start, rfl, rfl, (Except.ok.inj h).symm⟩
  · intro h
    obtain ⟨clock, start, hclock, hstart, rfl⟩ := h
    rw [hclock, hstart]
    rfl

theorem clockConfiguration_mem {clock config : BitVec 16} (h : clockConfiguration clock = .ok config) :
    config = 0 ∨ config = 0x10 ∨ config = 0x18 := by
  rw [clockConfiguration] at h
  split at h
  · exact .inl (Except.ok.inj h).symm
  split at h
  · exact .inr (.inl (Except.ok.inj h).symm)
  split at h
  · exact .inr (.inr (Except.ok.inj h).symm)
  · cases h

theorem startConfiguration_mem {start config : BitVec 16} (h : startConfiguration start = .ok config) :
    config = 0x40 ∨ config = 0x80 ∨ config = 0x20 := by
  rw [startConfiguration] at h
  split at h
  · exact .inl (Except.ok.inj h).symm
  split at h
  · exact .inr (.inl (Except.ok.inj h).symm)
  split at h
  · exact .inr (.inr (Except.ok.inj h).symm)
  · cases h

theorem intConfiguration_mem (int : BitVec 16) : intConfiguration int = 0 ∨ intConfiguration int = 1 ∨
    intConfiguration int = 4 ∨ intConfiguration int = 5 := by
  rw [intConfiguration]
  split <;> split <;> decide

/-- Two control words that differ in nothing but the state. -/
structure SameControl (cw cw' : BitVec 16) : Prop where
  int : cwIntGet cw' = cwIntGet cw
  cnt : cwCntGet cw' = cwCntGet cw
  start : cwStartGet cw' = cwStartGet cw
  ppml : cwPpmlGet cw' = cwPpmlGet cw
  clock : cwClockGet cw' = cwClockGet cw

theorem sameControl_stateSet (cw : BitVec 16) : SameControl cw (cwStateSet cw 1) :=
  ⟨field_or cw (by decide), field_or cw (by decide), field_or cw (by decide), field_or cw (by decide),
    BitField.or_and_of_disjoint cw (by decide)⟩

theorem sameControl_stateClr (cw : BitVec 16) : SameControl cw (cwStateClr cw) :=
  ⟨field_and_not cw (by decide), field_and_not cw (by decide), field_and_not cw (by decide),
    field_and_not cw (by decide), BitField.clear_and_of_disjoint cw (by decide)⟩

theorem SameControl.getX {cw cw' : BitVec 16} (h : SameControl cw cw') :
    getXConfiguration cw' = getXConfiguration cw := by
  rw [getXConfiguration, getXConfiguration, h.int, h.clock, h.start]

theorem SameControl.counter {cw cw' : BitVec 16} (h : SameControl cw cw') :
    counterOf cw' = counterOf cw := by
  rw [counterOf, counterOf, h.cnt]

theorem cwIntGet_set (cw : BitVec 16) : cwIntGet (cwIntSet cw doInterrupt) = cwIntGet cw ||| 2 := by
  rw [cwIntGet, cwIntSet, BitVec.ushiftRight_or_distrib, BitVec.and_comm, BitVec.and_or_distrib_left,
    BitVec.and_comm, cwIntGet]
  rfl

theorem cwIntGet_clear (cw : BitVec 16) :
    cwIntGet (cw &&& ~~~(doInterrupt <<< 14)) = cwIntGet cw &&& ~~~2 := by
  rw [cwIntGet, cwIntGet, BitVec.ushiftRight_and_distrib, BitVec.and_assoc, BitVec.and_assoc]
  rfl

/-- Asking for the interrupt in the control word is what sets its bit of the configuration. -/
theorem intConfiguration_set (int : BitVec 16) :
    intConfiguration (int ||| 2) = intConfiguration int ||| 4 := by
  have hout : (int ||| 2) &&& doOutput = int &&& doOutput :=
    BitField.or_and_of_disjoint int (by decide)
  have hint : (int ||| 2) &&& doInterrupt ≠ 0 := by
    rw [show doInterrupt = 2 from rfl, BitField.or_and_self]
    decide
  rw [intConfiguration, intConfiguration, hout, if_pos hint]
  split <;> split <;> decide

theorem intConfiguration_clear (int : BitVec 16) :
    intConfiguration (int &&& ~~~2) = intConfiguration int &&& ~~~4 := by
  have hout : (int &&& ~~~2) &&& doOutput = int &&& doOutput :=
    BitField.clear_and_of_disjoint int (by decide)
  have hint : (int &&& ~~~2) &&& doInterrupt = 0 := by
    rw [BitVec.and_assoc, show (~~~2 &&& doInterrupt : BitVec 16) = 0#16 by decide, BitVec.and_zero]
    rfl
  rw [intConfiguration, intConfiguration, hout, hint, if_neg (not_not.2 rfl)]
  split <;> split <;> decide

/-- The interrupt bit lies beside those of the clock and of the start. -/
theorem configuration_set {int clock start : BitVec 16} (hc : clock = 0 ∨ clock = 0x10 ∨ clock = 0x18)
    (hs : start = 0x40 ∨ start = 0x80 ∨ start = 0x20) :
    (intConfiguration int ||| clock ||| start) ||| 4 =
        intConfiguration (int ||| 2) ||| clock ||| start ∧
      (intConfiguration int ||| clock ||| start) &&& ~~~4 =
        intConfiguration (int &&& ~~~2) ||| clock ||| start := by
  rw [intConfiguration_set, intConfiguration_clear]
  rcases intConfiguration_mem int with hi | hi | hi | hi <;> rcases hc with rfl | rfl | rfl <;>
    rcases hs with rfl | rfl | rfl <;> rw [hi] <;> decide

theorem configuration_clock {int clock clock' start : BitVec 16}
    (hc : clock = 0 ∨ clock = 0x10 ∨ clock = 0x18) (hc' : clock' = 0 ∨ clock' = 0x10 ∨ clock' = 0x18)
    (hs : start = 0x40 ∨ start = 0x80 ∨ start = 0x20) :
    (intConfiguration int ||| clock ||| start) &&& ~~~0x18 ||| clock' =
      intConfiguration int ||| clock' ||| start := by
  rcases intConfiguration_mem int with hi | hi | hi | hi <;> rcases hc with rfl | rfl | rfl <;>
    rcases hs with rfl | rfl | rfl <;> rcases hc' with rfl | rfl | rfl <;> rw [hi] <;> decide

/-! ### Rows that hold an action -/

/-- The row holds an action that was accepted: the configuration, the counter and the delay are those
of its control word, and it is no part of a PPM timing. -/
structure Accepted (a : Tg8Action) : Prop where
  config : getXConfiguration a.user.uControl = .ok a.cntControl
  counter : a.cntNum = counterOf a.user.uControl
  delay : output a = true → a.user.uDelay ≠ 0
  plain : cwPpmlGet a.user.uControl = 0

theorem add_one_ne_zero {delay : BitVec 16} (h : delay ≠ 0xFFFF) : delay + 1 ≠ 0 := by
  intro hzero
  apply h
  bv_omega

/-- What `InsertAction` stores of an action that it accepts. -/
theorem storedAction_accepted {action : Tg8User} {row : Tg8Action} (h : storedAction action = .ok row)
    (hplain : cwPpmlGet action.uControl = 0) :
    Accepted row ∧ row.user.uEvent = action.uEvent ∧
      (enabled row = true ↔ cwStateGet row.user.uControl = 0) := by
  rw [storedAction] at h
  cases hconfig : getXConfiguration action.uControl with
  | error e => rw [hconfig] at h; cases h
  | ok config =>
    cases hdelay : storedDelay config action.uDelay with
    | error e => simp only [hconfig, hdelay, bind, Except.bind] at h; cases h
    | ok delay =>
      simp only [hconfig, hdelay, bind, Except.bind, pure, Except.pure, Except.ok.injEq] at h
      subst h
      have hsame : SameControl action.uControl (storedControl action.uControl) := by
        rw [storedControl]
        split
        · exact sameControl_stateSet _
        · exact ⟨rfl, rfl, rfl, rfl, rfl⟩
      refine ⟨⟨hsame.getX.trans hconfig, hsame.counter.symm, fun hout => ?_, hsame.ppml.trans hplain⟩,
        rfl, ?_⟩
      · rw [storedDelay, if_pos (of_decide_eq_true hout)] at hdelay
        split at hdelay
        · cases hdelay
        · next hne =>
          rw [← Except.ok.inj hdelay]
          exact add_one_ne_zero hne
      · rw [enabled]
        dsimp only
        split
        · next hstate => exact iff_of_true (by decide) hstate
        · next hstate => exact iff_of_false (by decide) hstate

/-- A row that is rewritten keeps its trigger, its state and its kind, and what makes it accepted. -/
structure Rewritten (a a' : Tg8Action) : Prop where
  same : enabled a' = enabled a
  event : a'.user.uEvent = a.user.uEvent
  state : cwStateGet a'.user.uControl = cwStateGet a.user.uControl
  kind : output a' = output a
  accepted : Accepted a → Accepted a'

theorem Rewritten.withGate (a : Tg8Action) (g : Tg8Gate) : Rewritten a (a.withGate g) :=
  ⟨rfl, rfl, rfl, rfl, fun h => ⟨h.config, h.counter, h.delay, h.plain⟩⟩

theorem Rewritten.withDim (a : Tg8Action) (p : Byte) : Rewritten a (a.withDim p) := by
  refine ⟨?_, rfl, rfl, rfl, fun h => ⟨h.config, h.counter, h.delay, h.plain⟩⟩
  have hbit : ((a.enabled &&& (1 : Byte)) ||| p <<< 1) &&& 1 = a.enabled &&& 1 := by
    rw [BitField.or_and_of_disjoint, BitVec.and_assoc, BitVec.and_self]
    ext i hi
    simp
    omega
  have hdim : enabled (a.withDim p) =
      decide (((a.enabled &&& (1 : Byte)) ||| p <<< 1) &&& (1 : Byte) ≠ 0) := rfl
  rw [hdim, hbit, enabled]

theorem Rewritten.delay (a : Tg8Action) {delay : BitVec 16} (h : delay ≠ 0xFFFF) :
    Rewritten a { a with user := { a.user with uDelay := delay + 1 } } :=
  ⟨rfl, rfl, rfl, rfl, fun ha => ⟨ha.config, ha.counter, fun _ => add_one_ne_zero h, ha.plain⟩⟩

/-- A row with another control word, whose interrupt and clock differ as those of its configuration. -/
theorem Rewritten.control (a : Tg8Action) {cw config delay : BitVec 16}
    (hstate : cwStateGet cw = cwStateGet a.user.uControl)
    (hcnt : cwCntGet cw = cwCntGet a.user.uControl) (hstart : cwStartGet cw = cwStartGet a.user.uControl)
    (hppml : cwPpmlGet cw = cwPpmlGet a.user.uControl)
    (hkind : config &&& confOUTPUT = a.cntControl &&& confOUTPUT)
    (hconfig : ∀ clock start, clockConfiguration (cwClockGet a.user.uControl) = .ok clock →
      (start = 0x40 ∨ start = 0x80 ∨ start = 0x20) →
      a.cntControl = intConfiguration (cwIntGet a.user.uControl) ||| clock ||| start →
      ∃ clock', clockConfiguration (cwClockGet cw) = .ok clock' ∧
        config = intConfiguration (cwIntGet cw) ||| clock' ||| start)
    (hdelay : a.user.uDelay ≠ 0 → delay ≠ 0) :
    Rewritten a { a with
      cntControl := config
      user := { a.user with uControl := cw, uDelay := delay } } := by
  have hout : output { a with
      cntControl := config
      user := { a.user with uControl := cw, uDelay := delay } } = output a :=
    congrArg (fun x : BitVec 16 => decide (x ≠ 0)) hkind
  refine ⟨rfl, rfl, hstate, hout, fun ha => ?_⟩
  obtain ⟨clock, start, hclock, hst, heq⟩ := getXConfiguration_ok.1 ha.config
  obtain ⟨clock', hclock', heq'⟩ := hconfig clock start hclock (startConfiguration_mem hst) heq
  refine ⟨getXConfiguration_ok.2 ⟨clock', start, hclock', hstart ▸ hst, heq'⟩, ?_,
    fun h => hdelay (ha.delay (hout ▸ h)), hppml.trans ha.plain⟩
  exact ha.counter.trans (by rw [counterOf, counterOf, hcnt])

theorem Rewritten.delayRow (a : Tg8Action) {delay aux clock : BitVec 16} (h : delay ≠ 0xFFFF)
    (haux : aux &&& 3 = aux) (hclock : clockConfiguration aux = .ok clock) :
    Rewritten a (delayRow delay aux clock a) := by
  -- the field of the clock is below the others
  have hfield : ∀ {k : ℕ} {m : BitVec 16}, (~~~(3 : BitVec 16) >>> k) &&& m = m →
      ((3 : BitVec 16) >>> k) &&& m = 0#16 →
      ((cwClockSet (cwClockClr a.user.uControl) aux) >>> k) &&& m = (a.user.uControl >>> k) &&& m := by
    intro k m hm h3
    rw [cwClockSet, cwClockClr, field_or, field_and_not _ hm]
    rw [← haux, BitVec.ushiftRight_and_distrib, BitVec.and_assoc, h3, BitVec.and_zero]
  have hclk : cwClockGet (cwClockSet (cwClockClr a.user.uControl) aux) = aux := by
    rw [cwClockGet, cwClockSet, cwClockClr, BitVec.and_comm, BitVec.and_or_distrib_left,
      BitVec.and_comm 3, BitVec.and_assoc, BitVec.and_comm 3 aux, haux]
    exact (congrArg (· ||| aux) BitVec.and_zero).trans BitVec.zero_or
  have hmem := clockConfiguration_mem hclock
  refine Rewritten.control a (hfield (k := 2) (by decide) (by decide))
    (hfield (k := 8) (by decide) (by decide)) (hfield (k := 6) (by decide) (by decide))
    (hfield (k := 3) (by decide) (by decide)) ?_ (fun clock₀ start hclock₀ hstart heq => ?_)
    fun _ => add_one_ne_zero h
  · rw [BitField.or_and_of_disjoint, BitField.clear_and_of_disjoint _ (by decide)]
    rcases hmem with rfl | rfl | rfl <;> decide
  · have hint : cwIntGet (cwClockSet (cwClockClr a.user.uControl) aux) = cwIntGet a.user.uControl :=
      hfield (k := 14) (by decide) (by decide)
    refine ⟨clock, (congrArg clockConfiguration hclk).trans hclock, ?_⟩
    rw [heq, configuration_clock (clockConfiguration_mem hclock₀) hmem hstart, hint]

theorem Rewritten.interrupt (a : Tg8Action) : Rewritten a { a with
    cntControl := a.cntControl ||| 4
    user := { a.user with uControl := cwIntSet a.user.uControl doInterrupt } } := by
  refine Rewritten.control a (field_or _ (by decide)) (field_or _ (by decide)) (field_or _ (by decide))
    (field_or _ (by decide)) (BitField.or_and_of_disjoint _ (by decide))
    (fun clock start hclock hstart heq => ⟨clock, ?_, ?_⟩) id
  · rw [cwIntSet, cwClockGet, BitField.or_and_of_disjoint _ (by decide)]
    exact hclock
  · rw [heq, cwIntGet_set, (configuration_set (clockConfiguration_mem hclock) hstart).1]

theorem Rewritten.noInterrupt (a : Tg8Action) : Rewritten a { a with
    cntControl := a.cntControl &&& ~~~4
    user := { a.user with uControl := a.user.uControl &&& ~~~(doInterrupt <<< 14) } } := by
  refine Rewritten.control a (field_and_not _ (by decide)) (field_and_not _ (by decide))
    (field_and_not _ (by decide)) (field_and_not _ (by decide))
    (BitField.clear_and_of_disjoint _ (by decide))
    (fun clock start hclock hstart heq => ⟨clock, ?_, ?_⟩) id
  · rw [cwClockGet, BitField.clear_and_of_disjoint _ (by decide)]
    exact hclock
  · rw [heq, cwIntGet_clear, (configuration_set (clockConfiguration_mem hclock) hstart).2]

/-! ### What every step keeps -/

section Steps

variable {s : EventProgram}

/-- The row can be enabled: it is in use, holds an action, and the usage tables know of it. -/
structure EventProgram.Ready (s : EventProgram) (addr : ℕ) : Prop where
  inside : addr < s.numOfAct
  accepted : Accepted (s.rows addr)
  noted : Noted (s.inUse.usage (header (s.rows addr).user.uEvent)) (s.rows addr).user.uEvent
    (output (s.rows addr))

/-- What is so of an enabled row: it is ready, is in the memory, and is not marked as disabled. -/
structure EventProgram.Armed (s : EventProgram) (addr : ℕ) : Prop where
  ready : s.Ready addr
  entry : s.cam addr = camEntry (s.rows addr)
  state : cwStateGet (s.rows addr).user.uControl = 0

/-- **The invariant.**  The rows in use are rows of the table, and the enabled rows are armed. -/
structure EventProgram.Kept (s : EventProgram) : Prop where
  bound : s.numOfAct ≤ tg8Actions
  armed : ∀ addr, enabled (s.rows addr) = true → s.Armed addr

theorem softInit_kept : softInit.Kept :=
  ⟨Nat.zero_le _, fun _ h => absurd (show enabled emptyRow = true from h) (by decide)⟩

/-- The invariant rule for the rounds of a handler. -/
theorem rounds_invariant {σ : Type*} {f : ℕ → σ → σ × Option InsertError} (addr cnt : ℕ) {k : ℕ}
    {t : σ} {P : ℕ → σ → Prop} (hinit : P k t)
    (hstep : ∀ j, k ≤ j → j < k + cnt → ∀ t, P j t → P (j + 1) (f j t).1) :
    ∃ j, P j (rounds f addr cnt k t).1 ∧ ((rounds f addr cnt k t).2 = none → j = k + cnt) := by
  induction cnt generalizing k t with
  | zero => exact ⟨k, hinit, fun _ => rfl⟩
  | succ cnt ih =>
    have hnext := hstep k (Nat.le_refl k) (by omega) t hinit
    rw [rounds]
    cases hf : f k t with
    | mk t' e =>
      rw [hf] at hnext
      cases e with
      | none =>
        obtain ⟨j, hj, hend⟩ := ih hnext fun j hlo hhi => hstep j (by omega) (by omega)
        exact ⟨j, hj, fun h => (hend h).trans (by omega)⟩
      | some e => exact ⟨k + 1, hnext, fun h => by cases h⟩

theorem rounds_keeps {σ : Type*} {f : ℕ → σ → σ × Option InsertError} {addr cnt k : ℕ} {t : σ}
    {P : σ → Prop} (hstep : ∀ j, k ≤ j → j < k + cnt → ∀ t, P t → P (f j t).1) (h : P t) :
    P (rounds f addr cnt k t).1 := by
  obtain ⟨_, hkept, -⟩ := rounds_invariant addr cnt (P := fun _ => P) h hstep
  exact hkept

@[simp] theorem EventProgram.put_self (addr : ℕ) (row : Tg8Action) : (s.put addr row).rows addr = row :=
  update_self ..

theorem EventProgram.put_of_ne {addr i : ℕ} (h : i ≠ addr) (row : Tg8Action) :
    (s.put addr row).rows i = s.rows i := update_of_ne h ..

/-- What two states have in common about a row. -/
def SameAt (i : ℕ) (s s' : EventProgram) : Prop := s'.rows i = s.rows i ∧ s'.cam i = s.cam i

theorem SameAt.trans {i : ℕ} {s' s'' : EventProgram} (h : SameAt i s s') (h' : SameAt i s' s'') :
    SameAt i s s'' :=
  ⟨h'.1.trans h.1, h'.2.trans h.2⟩

theorem sameAt_put {addr i : ℕ} (hi : i ≠ addr) (row : Tg8Action) : SameAt i s (s.put addr row) :=
  ⟨EventProgram.put_of_ne hi row, rfl⟩

theorem sameAt_insertCam {addr i : ℕ} (hi : i ≠ addr) (entry : BitVec 32 × BitVec 16) :
    SameAt i s (s.insertCam addr entry) :=
  ⟨rfl, update_of_ne hi ..⟩

theorem EventProgram.Ready.put {addr i : ℕ} {row : Tg8Action} (h : s.Ready i)
    (hrow : Rewritten (s.rows addr) row) : (s.put addr row).Ready i := by
  by_cases hi : i = addr
  · subst hi
    refine ⟨h.inside, by rw [put_self]; exact hrow.accepted h.accepted, ?_⟩
    rw [put_self, hrow.event, hrow.kind]
    exact h.noted
  · refine ⟨h.inside, by rw [put_of_ne hi]; exact h.accepted, ?_⟩
    rw [put_of_ne hi]
    exact h.noted

/-- An armed row stays armed where nothing of it changes and more may be noted. -/
theorem EventProgram.Armed.transfer {s' : EventProgram} {i : ℕ} (h : s.Armed i)
    (hsame : SameAt i s s') (hinside : i < s'.numOfAct)
    (hnoted : ∀ code, (s.inUse.usage code).Within (s'.inUse.usage code)) : s'.Armed i := by
  refine ⟨⟨hinside, ?_, ?_⟩, ?_, ?_⟩ <;> rw [hsame.1]
  · exact h.ready.accepted
  · exact h.ready.noted.mono (hnoted _)
  · exact hsame.2.trans h.entry
  · exact h.state

/-- Where one row changes and is armed if it is enabled, the others stay armed. -/
theorem EventProgram.Kept.of_row {s' : EventProgram} (h : s.Kept) (addr : ℕ)
    (hrow : enabled (s'.rows addr) = true → s'.Armed addr)
    (hothers : ∀ i, i ≠ addr → SameAt i s s')
    (hbound : s'.numOfAct = s.numOfAct) (hnoted : s'.inUse = s.inUse) : s'.Kept := by
  refine ⟨hbound ▸ h.bound, fun i hi => ?_⟩
  by_cases heq : i = addr
  · subst heq
    exact hrow hi
  · have harm := h.armed i ((hothers i heq).1 ▸ hi)
    exact harm.transfer (hothers i heq) (hbound ▸ harm.ready.inside) fun _ => hnoted ▸ .refl _

theorem EventProgram.Kept.of_disabled {s' : EventProgram} (h : s.Kept) (addr : ℕ)
    (hrow : enabled (s'.rows addr) = false)
    (hothers : ∀ i, i ≠ addr → SameAt i s s')
    (hbound : s'.numOfAct = s.numOfAct) (hnoted : s'.inUse = s.inUse) : s'.Kept :=
  h.of_row addr (fun hi => absurd (hrow.symm.trans hi) Bool.false_ne_true) hothers hbound hnoted

theorem EventProgram.Kept.put {addr : ℕ} {row : Tg8Action} (h : s.Kept)
    (hrow : Rewritten (s.rows addr) row) : (s.put addr row).Kept := by
  refine h.of_row addr (fun hi => ?_) (fun i hi => sameAt_put hi row) rfl rfl
  rw [put_self, hrow.same] at hi
  have harm := h.armed addr hi
  refine ⟨harm.ready.put hrow, ?_, ?_⟩ <;> rw [put_self]
  · rw [camEntry, hrow.event, hrow.kind]
    exact harm.entry
  · exact hrow.state.trans harm.state

theorem refusedRow_enabled (action : Tg8User) : enabled (refusedRow action) = false := by
  show decide ((2 : Byte) &&& 1 ≠ 0) = false
  decide

/-- An action that is accepted is noted and armed, and the other rows stay as they are. -/
theorem EventProgram.Kept.insertAction {action : Tg8User} {addr : ℕ} (h : s.Kept)
    (haddr : addr < tg8Actions) (hplain : cwPpmlGet action.uControl = 0) :
    (insertAction action addr s).1.Kept := by
  rw [Firmware.insertAction]
  cases hrow : storedAction action with
  | error e =>
    refine h.of_disabled addr ?_ (fun i hi => ⟨update_of_ne hi .., rfl⟩) rfl rfl
    exact (congrArg enabled (update_self ..)).trans (refusedRow_enabled action)
  | ok row =>
    obtain ⟨hacc, hevent, hstate⟩ := storedAction_accepted hrow hplain
    have hline : cwPpmlGet row.user.uControl ≠ tmLine := by
      rw [hacc.plain]
      decide
    dsimp only
    rw [if_neg hline, if_neg hline]
    refine ⟨max_le h.bound (Nat.succ_le_of_lt haddr), fun i hi => ?_⟩
    dsimp only at hi
    by_cases heq : i = addr
    · subst heq
      rw [update_self] at hi
      refine ⟨⟨lt_of_lt_of_le (Nat.lt_succ_self i) (le_max_right ..), ?_, ?_⟩, ?_, ?_⟩ <;> dsimp only <;>
        rw [update_self]
      · exact hacc
      · exact s.inUse.noted_note ..
      · rw [update_self, if_pos (hstate.1 hi)]
      · exact hstate.1 hi
    · rw [update_of_ne heq] at hi
      have harm := h.armed i hi
      exact harm.transfer ⟨update_of_ne heq .., update_of_ne heq ..⟩
        (lt_of_lt_of_le harm.ready.inside (le_max_left ..)) (s.inUse.within_note _ _)

theorem enabled_or (a : Tg8Action) (cw : BitVec 16) : enabled { a with
    enabled := a.enabled ||| (1 : Byte)
    user := { a.user with uControl := cw } } = true :=
  decide_eq_true (by rw [BitField.or_and_self]; decide)

theorem enabled_clear (a : Tg8Action) (cw : BitVec 16) : enabled { a with
    enabled := a.enabled &&& ~~~(1 : Byte)
    user := { a.user with uControl := cw } } = false := by
  show decide (a.enabled &&& ~~~(1 : Byte) &&& 1 ≠ 0) = false
  rw [BitVec.and_assoc, show (~~~(1 : Byte) &&& 1) = 0#8 by decide, BitVec.and_zero]
  decide

theorem cwStateGet_clr (cw : BitVec 16) : cwStateGet (cwStateClr cw) = 0 := by
  rw [cwStateGet, cwStateClr, BitVec.ushiftRight_and_distrib, BitVec.and_assoc]
  exact BitVec.and_zero

/-- A row that is ready is armed when it is enabled. -/
theorem EventProgram.Kept.enable {addr : ℕ} (h : s.Kept) (hready : s.Ready addr) :
    ((s.insertCam addr (camEntry (s.rows addr))).put addr { s.rows addr with
      enabled := (s.rows addr).enabled ||| (1 : Byte)
      user := { (s.rows addr).user with
        uControl := cwStateClr (s.rows addr).user.uControl } }).Kept := by
  refine h.of_row addr (fun _ => ?_)
    (fun i hi => (sameAt_insertCam hi _).trans (sameAt_put hi _)) rfl rfl
  have hsame := sameControl_stateClr (s.rows addr).user.uControl
  refine ⟨⟨hready.inside, ?_, ?_⟩, ?_, ?_⟩ <;> rw [put_self]
  · exact ⟨hsame.getX.trans hready.accepted.config, hready.accepted.counter.trans hsame.counter.symm,
      hready.accepted.delay, hsame.ppml.trans hready.accepted.plain⟩
  · exact hready.noted
  · exact update_self ..
  · exact cwStateGet_clr _

theorem EventProgram.Kept.setStateRow {state : BitVec 16} {addr : ℕ} (h : s.Kept)
    (hready : state = 1 ∨ state = 5 → s.Ready addr) : (setStateRow state addr s).Kept := by
  unfold Firmware.setStateRow
  dsimp only
  by_cases hon : state = 1 ∨ state = 5
  · have hplain : cwPpmlGet (s.rows addr).user.uControl = 0 := (hready hon).accepted.plain
    rw [if_pos hon, hplain, if_neg fun hand : _ ∧ _ => absurd hand.2 (by decide)]
    exact h.enable (hready hon)
  rw [if_neg hon]
  split
  · refine h.of_disabled addr ?_ (fun i hi => SameAt.trans ?_ (sameAt_put hi _)) ?_ ?_
    · rw [put_self, enabled_clear]
    all_goals split
    · exact ⟨rfl, rfl⟩
    · exact sameAt_insertCam hi _
    all_goals rfl
  split
  · exact h.put (.interrupt _)
  split
  · exact h.put (.noInterrupt _)
  · exact h

/-- One round leaves the other rows and what is noted. -/
theorem setStateRow_frame (state : BitVec 16) {addr i : ℕ} (hi : i ≠ addr) :
    SameAt i s (setStateRow state addr s) ∧ (setStateRow state addr s).numOfAct = s.numOfAct ∧
      (setStateRow state addr s).inUse = s.inUse := by
  unfold setStateRow
  dsimp only
  split_ifs
  · exact ⟨sameAt_put hi _, rfl, rfl⟩
  · exact ⟨(sameAt_insertCam hi _).trans (sameAt_put hi _), rfl, rfl⟩
  · exact ⟨sameAt_put hi _, rfl, rfl⟩
  · exact ⟨(sameAt_insertCam hi _).trans (sameAt_put hi _), rfl, rfl⟩
  · exact ⟨sameAt_put hi _, rfl, rfl⟩
  · exact ⟨sameAt_put hi _, rfl, rfl⟩
  · exact ⟨⟨rfl, rfl⟩, rfl, rfl⟩

theorem EventProgram.Ready.setStateRow {state : BitVec 16} {addr i : ℕ} (h : s.Ready i)
    (hi : i ≠ addr) : (setStateRow state addr s).Ready i := by
  obtain ⟨⟨hrows, -⟩, hbound, hnoted⟩ := setStateRow_frame (s := s) state hi
  refine ⟨hbound ▸ h.inside, ?_, ?_⟩ <;> rw [hrows]
  · exact h.accepted
  · exact hnoted ▸ h.noted

/-- What the loop of `Tg8OP_CLEAR_USER_TABLE` clears, and that it does nothing else. -/
theorem clearLoop_spec (cnt addr : ℕ) (s : EventProgram) :
    (clearLoop cnt addr s).1 = max addr (min (addr + cnt) s.numOfAct) ∧
      (clearLoop cnt addr s).2.numOfAct = s.numOfAct ∧ (clearLoop cnt addr s).2.inUse = s.inUse ∧
      (∀ i, addr ≤ i → i < (clearLoop cnt addr s).1 → (clearLoop cnt addr s).2.rows i = emptyRow) ∧
      ∀ i, (i < addr ∨ (clearLoop cnt addr s).1 ≤ i) → SameAt i s (clearLoop cnt addr s).2 := by
  induction cnt generalizing addr s with
  | zero =>
    exact ⟨by rw [clearLoop]; omega, rfl, rfl, fun i h h' => absurd h' (Nat.not_lt.2 h),
      fun _ _ => ⟨rfl, rfl⟩⟩
  | succ cnt ih =>
    rw [clearLoop]
    split
    · obtain ⟨hend, hbound, hnoted, hcleared, hothers⟩ :=
        ih (addr + 1) ((s.put addr emptyRow).insertCam addr (0, 0))
      have hnum : ((s.put addr emptyRow).insertCam addr (0, 0)).numOfAct = s.numOfAct := rfl
      rw [hnum] at hend
      refine ⟨by omega, hbound, hnoted, fun i hlo hhi => ?_, fun i hi => ?_⟩
      · rcases Nat.eq_or_lt_of_le hlo with rfl | hlt
        · exact (hothers addr (.inl (Nat.lt_succ_self addr))).1.trans (update_self ..)
        · exact hcleared i hlt hhi
      · have hne : i ≠ addr := by omega
        exact ((sameAt_put hne _).trans (sameAt_insertCam hne _)).trans (hothers i (by omega))
    · exact ⟨by dsimp only; omega, rfl, rfl, fun i h h' => absurd h' (Nat.not_lt.2 h),
        fun _ _ => ⟨rfl, rfl⟩⟩

/-! ### Requests -/

theorem addr_lt (mb : BlockData) : mb.addr < tg8Actions := by
  rw [BlockData.addr, BitVec.toNat_and]
  exact Nat.lt_succ_of_le Nat.and_le_right

theorem addr_add_lt {mb : BlockData} {k : ℕ} (hk : k < mb.cnt) : mb.addr + k < tg8Actions := by
  have haddr := addr_lt mb
  rw [BlockData.cnt] at hk
  split at hk <;> omega

/-- What a request is to meet: the actions that are written are no part of a PPM timing, and the rows
that are enabled are ready for it. -/
def Proper (s : EventProgram) : EventStep → Prop
  | .mailbox .SET_USER_TABLE mb =>
    ∀ k < mb.cnt, cwPpmlGet (userLayout.item mb.buff k).uControl = 0
  | .mailbox .SET_STATE mb =>
    (stateAux mb).1 = 1 ∨ (stateAux mb).1 = 5 → ∀ k < mb.cnt, s.Ready (mb.addr + k)
  | _ => True

theorem EventProgram.Kept.clearUserTable (h : s.Kept) (mb : BlockData) :
    (clearUserTable mb s).Kept := by
  obtain ⟨-, hbound, hnoted, hcleared, hothers⟩ := clearLoop_spec mb.cnt mb.addr s
  -- an enabled row is outside what has been cleared, and was armed before
  have hold : ∀ i, enabled ((clearLoop mb.cnt mb.addr s).2.rows i) = true →
      (i < mb.addr ∨ (clearLoop mb.cnt mb.addr s).1 ≤ i) ∧
        (clearLoop mb.cnt mb.addr s).2.Armed i := by
    intro i hi
    have hout : i < mb.addr ∨ (clearLoop mb.cnt mb.addr s).1 ≤ i := by
      by_contra hin
      rw [hcleared i (by omega) (by omega)] at hi
      exact absurd hi (by decide)
    have harm := h.armed i ((hothers i hout).1 ▸ hi)
    exact ⟨hout, harm.transfer (hothers i hout) (hbound ▸ harm.ready.inside)
      fun _ => hnoted ▸ .refl _⟩
  rw [Firmware.clearUserTable]
  dsimp only
  split
  · next hend =>
    refine ⟨(addr_lt mb).le, fun i hi => ?_⟩
    obtain ⟨hout, harm⟩ := hold i hi
    have hlt : i < mb.addr := hout.resolve_right (Nat.not_le.2 (hend ▸ harm.ready.inside))
    refine harm.transfer ⟨rfl, rfl⟩ hlt fun _ => ?_
    dsimp only
    rw [if_neg (by omega)]
    exact .refl _
  · exact ⟨hbound ▸ h.bound, fun i hi => (hold i hi).2⟩

theorem EventProgram.Kept.setDelayRow {delay : BitVec 16} {addr : ℕ} {t : BitVec 16 × EventProgram}
    (h : t.2.Kept) : (setDelayRow delay addr t).1.2.Kept := by
  unfold Firmware.setDelayRow
  dsimp only
  split
  · split
    · exact h
    next hdelay =>
    split
    · split
      · exact h
      next hclock =>
      refine h.put (.delayRow _ hdelay ?_ hclock)
      rw [BitVec.and_assoc, BitVec.and_self]
    · exact h.put (.delay _ hdelay)
  · exact h

/-- **Every request keeps the invariant**, if it is proper. -/
theorem EventProgram.Kept.serveTable {op : TableOp} {mb : BlockData} (h : s.Kept)
    (hok : Proper s (.mailbox op mb)) : (serveTable mb s op).1.Kept := by
  cases op with
  | SET_USER_TABLE =>
    show (setUserTable mb s).1.Kept
    rw [setUserTable]
    refine rounds_keeps (fun k _ hk t ht => ?_) h
    exact ht.insertAction (addr_add_lt (by omega)) (hok k (by omega))
  | CLEAR_USER_TABLE => exact h.clearUserTable mb
  | SET_STATE =>
    show (setState mb s).1.Kept
    rw [setState]
    obtain ⟨_, ⟨hkept, -⟩, -⟩ := rounds_invariant mb.addr mb.cnt (k := 0)
      (f := fun k s => (Firmware.setStateRow (stateAux mb).1 (mb.addr + k) s, none))
      (P := fun j (t : EventProgram) => t.Kept ∧ ((stateAux mb).1 = 1 ∨ (stateAux mb).1 = 5 →
        ∀ i, j ≤ i → i < mb.cnt → t.Ready (mb.addr + i)))
      ⟨h, fun hon i _ hi => hok hon i hi⟩ fun j _ hj t ht =>
        ⟨ht.1.setStateRow fun hon => ht.2 hon j (Nat.le_refl j) (by omega), fun hon i hlo hi =>
          (ht.2 hon i (by omega) hi).setStateRow (by omega)⟩
    exact hkept
  | SET_DELAY =>
    show (setDelay mb s).1.Kept
    rw [setDelay]
    exact rounds_keeps (P := fun t : BitVec 16 × EventProgram => t.2.Kept)
      (fun _ _ _ _ ht => ht.setDelayRow) h
  | SET_GATE =>
    show (setGate mb s).1.Kept
    rw [setGate]
    exact rounds_keeps (fun _ _ _ _ ht => ht.put (.withGate _ _)) h
  | SET_DIM =>
    show (setDim mb s).1.Kept
    rw [setDim]
    exact rounds_keeps (fun _ _ _ _ ht => ht.put (.withDim _ _)) h

/-- The states of a request that switches its rows on, or off. -/
def Switches (state : BitVec 16) : Bool → Prop
  | true => state = 1 ∨ state = 5
  | false => state = 0 ∨ state = 4

/-- The row has been switched on or off, and is looked up as before. -/
structure Switched (b : Bool) (a a' : Tg8Action) : Prop where
  same : enabled a' = b
  event : a'.user.uEvent = a.user.uEvent
  kind : output a' = output a

theorem setStateRow_switched {state : BitVec 16} {b : Bool} (h : Switches state b) (addr : ℕ) :
    Switched b (s.rows addr) ((setStateRow state addr s).rows addr) := by
  unfold setStateRow
  dsimp only
  cases b with
  | true =>
    rw [if_pos (show state = 1 ∨ state = 5 from h), EventProgram.put_self]
    exact ⟨enabled_or _ _, rfl, rfl⟩
  | false =>
    have hoff : ¬(state = 1 ∨ state = 5) := by
      rcases h with rfl | rfl <;> decide
    rw [if_neg hoff, if_pos (show state = 0 ∨ state = 4 from h), EventProgram.put_self]
    exact ⟨enabled_clear _ _, rfl, rfl⟩

theorem rounds_accepted {σ : Type*} {f : ℕ → σ → σ} {addr : ℕ} (cnt k : ℕ) (t : σ) :
    (rounds (fun k t => (f k t, none)) addr cnt k t).2 = none := by
  induction cnt generalizing k t with
  | zero => rfl
  | succ cnt ih => exact ih (k + 1) (f k t)

theorem setState_switched {mb : BlockData} {b : Bool} (h : Switches (stateAux mb).1 b) {i : ℕ}
    (hlo : mb.addr ≤ i) (hhi : i < mb.addr + mb.cnt) :
    Switched b (s.rows i) ((setState mb s).1.rows i) := by
  obtain ⟨j, ⟨-, hafter⟩, hend⟩ := rounds_invariant mb.addr mb.cnt (k := 0) (t := s)
    (f := fun k s => (setStateRow (stateAux mb).1 (mb.addr + k) s, none))
    (P := fun j t => (mb.addr + j ≤ i → t.rows i = s.rows i) ∧
      (i < mb.addr + j → Switched b (s.rows i) (t.rows i)))
    ⟨fun _ => rfl, fun hlt => by omega⟩ fun j _ _ t ht => by
      by_cases hi : i = mb.addr + j
      · subst hi
        refine ⟨fun hle => by omega, fun _ => ?_⟩
        rw [← ht.1 (Nat.le_refl _)]
        exact setStateRow_switched h _
      · have hrow := (setStateRow_frame (s := t) (stateAux mb).1 hi).1.1
        dsimp only
        rw [hrow]
        exact ⟨fun hle => ht.1 (by omega), fun hlt => ht.2 (by omega)⟩
  exact hafter (by rw [hend (rounds_accepted ..)]; omega)

/-- What a request for some rows leaves alone: the rows outside and, if it is refused, those behind the
row that it is refused for. -/
structure Confined (addr cnt : ℕ) (s : EventProgram) (r : EventProgram × Completion) : Prop where
  outside : ∀ i, i < addr ∨ addr + cnt ≤ i → SameAt i s r.1
  refused : ∀ row e, r.2 = some (row, e) →
    addr ≤ row ∧ row < addr + cnt ∧ ∀ i, row < i → SameAt i s r.1

/-- The frame rule for the rounds of a handler, each of which is for one row. -/
theorem rounds_confined {σ : Type*} (g : σ → EventProgram) {f : ℕ → σ → σ × Option InsertError}
    {addr : ℕ} (hstep : ∀ j t i, i ≠ addr + j → SameAt i (g t) (g (f j t).1)) (cnt k : ℕ) (t : σ) :
    Confined (addr + k) cnt (g t)
      (g (rounds f addr cnt k t).1, (rounds f addr cnt k t).2) := by
  induction cnt generalizing k t with
  | zero => exact ⟨fun _ _ => ⟨rfl, rfl⟩, fun _ _ h => by cases h⟩
  | succ cnt ih =>
    have hround := hstep k t
    rw [rounds]
    cases hf : f k t with
    | mk t' e =>
      rw [hf] at hround
      cases e with
      | none =>
        obtain ⟨houtside, hrefused⟩ := ih (k + 1) t'
        refine ⟨fun i hi => ?_, fun row e hrow => ?_⟩
        · exact (hround i (by omega)).trans (houtside i (by omega))
        · obtain ⟨hlo, hhi, hbehind⟩ := hrefused row e hrow
          exact ⟨by omega, by omega, fun i hi => (hround i (by omega)).trans (hbehind i hi)⟩
      | some e =>
        refine ⟨fun i hi => hround i (by omega), fun row e' hrow => ?_⟩
        obtain ⟨rfl, -⟩ := Prod.mk.inj (Option.some.inj hrow)
        exact ⟨Nat.le_refl _, by omega, fun i hi => hround i (by omega)⟩

theorem insertAction_others (action : Tg8User) {addr i : ℕ} (hi : i ≠ addr) (s : EventProgram) :
    SameAt i s (insertAction action addr s).1 := by
  rw [insertAction]
  cases storedAction action with
  | error e => exact ⟨update_of_ne hi .., rfl⟩
  | ok row =>
    refine ⟨update_of_ne hi .., ?_⟩
    dsimp only
    split
    · rfl
    · exact update_of_ne hi ..

theorem setDelayRow_others (delay : BitVec 16) {addr i : ℕ} (hi : i ≠ addr)
    (t : BitVec 16 × EventProgram) : SameAt i t.2 (setDelayRow delay addr t).1.2 := by
  unfold setDelayRow
  dsimp only
  split_ifs
  · exact ⟨rfl, rfl⟩
  · split
    · exact ⟨rfl, rfl⟩
    · exact sameAt_put hi _
  · exact sameAt_put hi _
  · exact ⟨rfl, rfl⟩

/-- **A request stays within its rows**, of the table and of the memory, whatever it is and whatever
becomes of it; and one that is refused has not come to the rows behind the one it was refused for. -/
theorem serveTable_confined (mb : BlockData) (op : TableOp) (s : EventProgram) :
    Confined mb.addr mb.cnt s (serveTable mb s op) := by
  cases op with
  | SET_USER_TABLE =>
    exact rounds_confined id (fun _ t _ hi => insertAction_others _ hi t) mb.cnt 0 s
  | CLEAR_USER_TABLE =>
    obtain ⟨hend, -, -, -, hothers⟩ := clearLoop_spec mb.cnt mb.addr s
    refine ⟨fun i hi => ?_, fun _ _ h => by cases h⟩
    have hsame : SameAt i s (clearLoop mb.cnt mb.addr s).2 := hothers i (by omega)
    show SameAt i s (clearUserTable mb s)
    rw [clearUserTable]
    dsimp only
    split
    · exact ⟨hsame.1, hsame.2⟩
    · exact hsame
  | SET_STATE =>
    exact rounds_confined id (fun _ _ _ hi => (setStateRow_frame _ hi).1) mb.cnt 0 s
  | SET_DELAY =>
    exact rounds_confined Prod.snd (fun _ t _ hi => setDelayRow_others _ hi t) mb.cnt 0
      ((stateAux mb).2, s)
  | SET_GATE => exact rounds_confined id (fun _ _ _ hi => sameAt_put hi _) mb.cnt 0 s
  | SET_DIM => exact rounds_confined id (fun _ _ _ hi => sameAt_put hi _) mb.cnt 0 s

/-- **Every step keeps the invariant.**  Looking a frame up changes only `eprog.Event`. -/
theorem EventProgram.Kept.step {a : EventStep} {s' : EventProgram} (h : s.Kept) (hok : Proper s a)
    (hs : s.step a = some s') : s'.Kept := by
  cases a with
  | mailbox op mb =>
    obtain rfl := Option.some.inj hs
    exact h.serveTable hok
  | frame frame =>
    obtain rfl := Option.some.inj hs
    exact ⟨h.bound, fun i hi =>
      (h.armed i hi).transfer ⟨rfl, rfl⟩ (h.armed i hi).ready.inside fun _ => .refl _⟩

theorem EventProgram.Kept.of_reachUnder (h : eventPrograms.ReachUnder Proper s) : s.Kept :=
  h.invariant (fun _ h₀ => h₀ ▸ softInit_kept) fun _ _ _ hkept hok hs => hkept.step hok hs

/-! ### What a frame starts -/

/-- The row waits for a frame. -/
structure EventProgram.Waits (s : EventProgram) (frame : BitVec 32) (out : Bool) (addr : ℕ) : Prop where
  enabled : enabled (s.rows addr) = true
  kind : output (s.rows addr) = out
  trigger : Matches (s.rows addr).user.uEvent frame

/-- **Exactly the waiting rows are started**; and once each, with room for what the searches report, if
the frame has no wildcards of its own or only one combination is looked for. -/
structure EventProgram.StartsRight (s : EventProgram) (frame : BitVec 32) (out : Bool) (wc : Byte)
    (ms : List ℕ) : Prop where
  mem : ∀ addr, addr ∈ started s ms ↔ s.Waits frame out addr
  once : Plain frame ∨ (fills wc).length ≤ 1 → ms.Nodup ∧ ms.length ≤ tg8Actions

theorem injOn_fills {frame : BitVec 32} {wc : Byte} (last : BitVec 16)
    (h : Plain frame ∨ (fills wc).length ≤ 1) :
    Set.InjOn (fun j => (frame ||| wildC j, last)) {j | j ∈ fills wc} := by
  intro j hj j' hj' heq
  rcases h with hplain | hone
  · exact hplain.injective (congrArg Prod.fst heq)
  · obtain ⟨i, hi⟩ : ∃ i, fills wc = [i] :=
      List.length_eq_one_iff.1 (Nat.le_antisymm hone (List.length_pos_of_mem hj))
    rw [Set.mem_ofPred_eq, hi, List.mem_singleton] at hj hj'
    rw [hj, hj']

/-- What is started is waiting, whichever combinations are looked for. -/
theorem EventProgram.Kept.waits_of_started (h : s.Kept) {frame : BitVec 32} {wc : Byte} {out : Bool}
    {addr : ℕ} (hmem : addr ∈ started s (matchList s frame wc (if out then 0xFF else 0))) :
    s.Waits frame out addr := by
  obtain ⟨hmatch, hon⟩ := List.mem_filter.1 hmem
  obtain ⟨-, j, -, hcam⟩ := mem_camSearches.1 hmatch
  rw [(h.armed addr hon).entry, camEntry] at hcam
  refine ⟨hon, ?_, .of_fill (congrArg Prod.fst hcam).symm⟩
  have hlast : (if output (s.rows addr) then 0xFF else 0 : BitVec 16) = if out then 0xFF else 0 :=
    congrArg Prod.snd hcam
  revert hlast
  cases output (s.rows addr) <;> cases out <;> decide

/-- What is waiting is started, if all is looked for that is noted of its header and its code. -/
theorem EventProgram.Kept.started_of_waits (h : s.Kept) {frame : BitVec 32} {wc : Byte} {out : Bool}
    (hwc : wc = (if out then (s.inUse.usage (header frame)).wc
      else (s.inUse.usage (header frame)).wcImm) (byte2 frame) &&&
        (s.inUse.usage (header frame)).headerWc (header frame)) {addr : ℕ}
    (hwaits : s.Waits frame out addr) :
    addr ∈ started s (matchList s frame wc (if out then 0xFF else 0)) := by
  have harm := h.armed addr hwaits.enabled
  have hnoted := harm.ready.noted
  rw [hwaits.kind, hwaits.trigger.header] at hnoted
  have hcode := hnoted.codes (byte2 frame) ((hwaits.trigger.bytes 2).symm.imp_right Eq.symm)
  have hheader := hnoted.headerWc
  rw [hwaits.trigger.header] at hheader
  refine List.mem_filter.2 ⟨mem_camSearches.2 ⟨lt_of_lt_of_le harm.ready.inside h.bound,
    wildcards (s.rows addr).user.uEvent, ?_, ?_⟩, hwaits.enabled⟩
  · rw [fills, List.mem_filter]
    refine ⟨List.mem_finRange _, ?_⟩
    rw [hwc, BitVec.getLsbD_and, hheader, Bool.and_true]
    exact hcode
  · rw [harm.entry, camEntry, hwaits.kind, hwaits.trigger.fill]

theorem EventProgram.Kept.startsRight (h : s.Kept) {frame : BitVec 32} {wc : Byte} {out : Bool}
    (hwc : wc = (if out then (s.inUse.usage (header frame)).wc
      else (s.inUse.usage (header frame)).wcImm) (byte2 frame) &&&
        (s.inUse.usage (header frame)).headerWc (header frame)) :
    s.StartsRight frame out wc (matchList s frame wc (if out then 0xFF else 0)) := by
  refine ⟨fun addr => ⟨h.waits_of_started, h.started_of_waits hwc⟩, fun honce => ?_⟩
  have hnodup : (matchList s frame wc (if out then 0xFF else 0)).Nodup :=
    camSearches_nodup ((List.nodup_finRange 8).filter _) (injOn_fills _ honce)
  exact ⟨hnodup, camSearches_length_le hnodup⟩

theorem EventProgram.Kept.atRight (h : s.Kept) (frame : BitVec 32) :
    s.StartsRight frame true (s.wildCard frame) (s.atMatches frame) :=
  h.startsRight rfl

/-- An output and an immediate action, both for millisecond 5. -/
def twoActions : BlockData := ⟨0, 2, fun i =>
  [0x01, 0x05, 0xFF, 0xFF, 0x41, 0x00, 0x00, 0x0A,
    0x01, 0x05, 0xFF, 0xFF, 0x81, 0x00, 0x00, 0x00].getD i 0⟩

def writtenProgram : EventProgram := (setUserTable twoActions softInit).1

theorem writtenProgram_reach : eventPrograms.ReachUnder Proper writtenProgram :=
  System.ReachUnder.step (a := .mailbox .SET_USER_TABLE twoActions) (.init rfl)
    (show ∀ k < 2, cwPpmlGet (userLayout.item twoActions.buff k).uControl = 0 by decide) rfl

/-- **Outputs.**  The AT-process starts exactly the outputs that wait for its frame. -/
theorem atProcess_startsRight (h : eventPrograms.ReachUnder Proper s) (frame : BitVec 32) :
    s.StartsRight frame true (s.wildCard frame) (s.atMatches frame) :=
  (EventProgram.Kept.of_reachUnder h).atRight frame

theorem atProcess_startsRight_written :
    0 ∈ started writtenProgram (writtenProgram.atMatches 0x0105FFFF) :=
  ((atProcess_startsRight writtenProgram_reach 0x0105FFFF).mem 0).2
    ⟨by decide, by decide, rfl, fun _ => .inl rfl⟩

/-- **Immediate actions.**  The IMM-process starts no row that does not wait for its frame, and exactly
those that do when the AT-process has looked up a frame with the same header last. -/
theorem immProcess_startsRight (h : eventPrograms.ReachUnder Proper s) (frame : BitVec 32) :
    (∀ addr ∈ started s (s.immMatches frame), s.Waits frame false addr) ∧
      (header s.event = header frame →
        s.StartsRight frame false (s.immWildCard frame) (s.immMatches frame)) := by
  have hkept := EventProgram.Kept.of_reachUnder h
  refine ⟨fun addr hmem => ?_, fun hheader => hkept.startsRight ?_⟩
  · exact hkept.waits_of_started (show addr ∈ started s (matchList s frame _
      (if false = true then 0xFF else 0)) from hmem)
  rw [EventProgram.immWildCard, hheader]
  rfl

/-- The frame has been looked up by the AT-process. -/
theorem immProcess_startsRight_written : 1 ∈ started (atProcess 0x0105FFFF writtenProgram)
    ((atProcess 0x0105FFFF writtenProgram).immMatches 0x0105FFFF) :=
  (((immProcess_startsRight (writtenProgram_reach.step (a := .frame 0x0105FFFF) trivial rfl)
    0x0105FFFF).2 rfl).mem 1).2 ⟨by decide, by decide, rfl, fun _ => .inl rfl⟩

/-- **Switching takes effect at once**: an output that has been switched on is started by just the
frames that its trigger is for, and a row that has been switched off by none. -/
theorem setState_takesEffect (h : eventPrograms.ReachUnder Proper s) {mb : BlockData}
    (hok : Proper s (.mailbox .SET_STATE mb)) {i : ℕ} (hlo : mb.addr ≤ i)
    (hhi : i < mb.addr + mb.cnt) (frame : BitVec 32) :
    (Switches (stateAux mb).1 true → output (s.rows i) = true →
      (i ∈ started (setState mb s).1 ((setState mb s).1.atMatches frame) ↔
        Matches (s.rows i).user.uEvent frame)) ∧
    (Switches (stateAux mb).1 false → ∀ ms, i ∉ started (setState mb s).1 ms) := by
  refine ⟨fun hon hout => ?_, fun hoff ms hmem => ?_⟩
  · have hrow := setState_switched hon hlo hhi (s := s)
    have hkept : (setState mb s).1.Kept := (EventProgram.Kept.of_reachUnder h).serveTable hok
    rw [(hkept.atRight frame).mem]
    exact ⟨fun hwaits => hrow.event ▸ hwaits.trigger,
      fun htrigger => ⟨hrow.same, hrow.kind.trans hout, hrow.event.symm ▸ htrigger⟩⟩
  · have hon := (List.mem_filter.1 hmem).2
    rw [(setState_switched hoff hlo hhi).same] at hon
    cases hon

/-- A request to switch the first row on. -/
def switchOn : BlockData := ⟨0, 1, fun i => [0, 1].getD i 0⟩

theorem setState_takesEffect_written : 0 ∈ started (setState switchOn writtenProgram).1
    ((setState switchOn writtenProgram).1.atMatches 0x0105FFFF) := by
  have hready : writtenProgram.Ready 0 :=
    ((EventProgram.Kept.of_reachUnder writtenProgram_reach).armed 0 (by decide)).ready
  refine ((@setState_takesEffect _ writtenProgram_reach switchOn (fun _ k hk => ?_)
    0 (Nat.le_refl 0) (by decide) 0x0105FFFF).1 (.inl rfl) rfl).2 ⟨rfl, fun _ => .inl rfl⟩
  obtain rfl : k = 0 := Nat.lt_one_iff.1 hk
  exact hready

/-- **An empty table starts nothing**: once all rows in use have been cleared, nothing is noted and
none is enabled. -/
theorem clearUserTable_startsNothing (h : eventPrograms.ReachUnder Proper s) {mb : BlockData}
    (haddr : mb.addr = 0) (hall : s.numOfAct ≤ mb.cnt) :
    (clearUserTable mb s).inUse = .empty ∧ ∀ ms, started (clearUserTable mb s) ms = [] := by
  have hkept := (EventProgram.Kept.of_reachUnder h).clearUserTable mb
  obtain ⟨hend, hbound, -⟩ := clearLoop_spec mb.cnt mb.addr s
  have hclear : (clearUserTable mb s).numOfAct = 0 ∧ (clearUserTable mb s).inUse = .empty := by
    rw [clearUserTable]
    dsimp only
    rw [if_pos (by omega)]
    exact ⟨haddr, if_pos haddr⟩
  refine ⟨hclear.2, fun ms => List.filter_eq_nil_iff.2 fun i _ hi => ?_⟩
  have hinside := (hkept.armed i hi).ready.inside
  omega

theorem clearUserTable_startsNothing_written :
    started (clearUserTable ⟨0, 2, fun _ => 0⟩ writtenProgram) [0, 1] = [] :=
  (clearUserTable_startsNothing writtenProgram_reach rfl (by decide)).2 [0, 1]

/-- **No frame is dropped for which a row waits**, unless its header is never served. -/
theorem served_of_waits (h : eventPrograms.ReachUnder Proper s) {frame : BitVec 32} {out : Bool}
    {addr : ℕ} (hwaits : s.Waits frame out addr) (hheader : header frame ∉ unserved) (immSize : Bool) :
    queued s.inUse immSize frame = true := by
  have hnoted := ((EventProgram.Kept.of_reachUnder h).armed addr hwaits.enabled).ready.noted
  have hcode : ServesCode (s.rows addr).user.uEvent (byte2 frame) :=
    (hwaits.trigger.bytes 2).symm.imp_right Eq.symm
  have hflag : ∀ i, (eventFlag (header frame)).getLsbD i = true →
      ((s.inUse.usage (header frame)).event (byte2 frame)).getLsbD i = true := by
    rw [← hwaits.trigger.header]
    exact hnoted.event _ hcode
  have hne : ∀ {x : Byte} {i : ℕ}, x.getLsbD i = true → (BitVec.twoPow 8 i).getLsbD i = true →
      x &&& BitVec.twoPow 8 i ≠ 0 := by
    intro x i hx hi hzero
    have hbit := congrArg (BitVec.getLsbD · i) hzero
    simp [hx, hi] at hbit
  simp only [unserved, List.mem_cons, List.not_mem_nil, or_false, not_or] at hheader
  obtain ⟨h21, hB5, hB6, h34, h44, h54, h14, h23, h13, h33, h43, h53⟩ := hheader
  rw [queued, if_neg h21]
  split
  · next h01 =>
    rw [h01] at hflag
    rw [Bool.or_eq_true]
    exact .inr (decide_eq_true (hne (i := 1) (hflag 1 (by decide)) (by decide)))
  next h01 =>
  rw [if_neg (by tauto)]
  split
  · rfl
  rw [if_neg (by tauto), if_neg (by tauto)]
  split
  · next hmachine =>
    have hsimple : s.inUse.usage (header frame) = s.inUse.simple := if_pos h01
    rw [hsimple, eventFlag, if_pos h01, hmachine] at hflag
    exact decide_eq_true (hne (i := 2) (hflag 2 (by decide)) (by decide))
  · rfl

theorem served_of_waits_written : queued writtenProgram.inUse false 0x0105FFFF = true :=
  served_of_waits writtenProgram_reach (show writtenProgram.Waits 0x0105FFFF true 0 from
    ⟨by decide, rfl, rfl, fun _ => .inl rfl⟩) (by decide) false

/-- **An enabled row is what its control word says.**  However its state, its delay, its clock and its
interrupt have been changed, the configuration and the counter it is started with are those of the
control word that is read back. -/
theorem enabled_accepted (h : eventPrograms.ReachUnder Proper s) {addr : ℕ}
    (hon : enabled (s.rows addr) = true) :
    addr < s.numOfAct ∧ s.numOfAct ≤ tg8Actions ∧ Accepted (s.rows addr) ∧
      cwStateGet (s.rows addr).user.uControl = 0 := by
  have hkept := EventProgram.Kept.of_reachUnder h
  have harm := hkept.armed addr hon
  exact ⟨harm.ready.inside, hkept.bound, harm.ready.accepted, harm.state⟩

theorem enabled_accepted_written : Accepted (writtenProgram.rows 0) :=
  (enabled_accepted writtenProgram_reach (show enabled (writtenProgram.rows 0) = true by decide)).2.2.1

end Steps

end KernelModules.Tg8.Firmware
