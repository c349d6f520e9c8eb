import Mathlib.Tactic
import KernelModules.Tg8.UserTable
import KernelModules.Lib.BlockTransfer

/-!
# Block transfers between the TG8 driver and its firmware

The rows of the firmware's table are set and read through the block of data in the dual-port memory,
which has room for so many of them: the driver takes a count in blocks, copies each of them word by
word, and leaves the row where the next block begins to the firmware.

* `insertAction`, `setGate` and `setDim` are what the firmware does with an item, `serveSet` and
  `serveGet` are its handlers;
* `setItems` and `getItems` are the loops of the driver, with `setAction`, `setGates`, `setDims`,
  `getAction`, `getPpmLine` and `getRecording`;
* `setItems_stores` and `getItems_items` say what a whole transfer does, of items with an even number
  of bytes;
* `transfer_right_iff` is the exact condition for all six.  A dimension is one byte: the last of an odd
  number of them is not copied, and the firmware has seven bits for each.

The memory is big-endian on both sides.  Left out are the semaphores, and the tables of the triggers
that are in use.
-/

namespace KernelModules.Tg8.Driver

open Function KernelModules.Lib

/-! ### Items -/

/-- `Tg8Gate`. -/
structure Tg8Gate where
  machine : BitVec 8
  groupNum : BitVec 8
  groupVal : BitVec 16
  deriving DecidableEq, Repr

/-- `Tg8PpmLine`. -/
structure Tg8PpmLine where
  action : Tg8User
  gate : Tg8Gate
  deriving DecidableEq, Repr

/-- `Tg8Recording`. -/
structure Tg8Recording where
  rSc : BitVec 32
  rOcc : BitVec 32
  rOut : BitVec 32
  rNumOfTrig : BitVec 16
  rOvwrCnt : BitVec 8
  rOvwrAct : BitVec 8
  deriving DecidableEq, Repr

/-- `Tg8Action`, a row of the firmware. -/
structure Tg8Action where
  user : Tg8User
  gate : Tg8Gate
  cntControl : BitVec 16
  cntNum : BitVec 8
  enabled : BitVec 8
  recording : Tg8Recording
  deriving DecidableEq, Repr

def userLayout : Layout Tg8User :=
  (Layout.dword.pair (Layout.word.pair Layout.word)).map
    { toFun := fun p => ⟨p.1, p.2.1, p.2.2⟩
      invFun := fun a => (a.uEvent, a.uControl, a.uDelay)
      left_inv := fun _ => rfl
      right_inv := fun _ => rfl }

def gateLayout : Layout Tg8Gate :=
  (Layout.byte.pair (Layout.byte.pair Layout.word)).map
    { toFun := fun p => ⟨p.1, p.2.1, p.2.2⟩
      invFun := fun g => (g.machine, g.groupNum, g.groupVal)
      left_inv := fun _ => rfl
      right_inv := fun _ => rfl }

def ppmLineLayout : Layout Tg8PpmLine :=
  (userLayout.pair gateLayout).map
    { toFun := fun p => ⟨p.1, p.2⟩
      invFun := fun l => (l.action, l.gate)
      left_inv := fun _ => rfl
      right_inv := fun _ => rfl }

def recordingLayout : Layout Tg8Recording :=
  (Layout.dword.pair (Layout.dword.pair (Layout.dword.pair
    (Layout.word.pair (Layout.byte.pair Layout.byte))))).map
    { toFun := fun p => ⟨p.1, p.2.1, p.2.2.1, p.2.2.2.1, p.2.2.2.2.1, p.2.2.2.2.2⟩
      invFun := fun r => (r.rSc, r.rOcc, r.rOut, r.rNumOfTrig, r.rOvwrCnt, r.rOvwrAct)
      left_inv := fun _ => rfl
      right_inv := fun _ => rfl }

/-! ### The firmware -/

/-- `Tg8CW_CNT_Get`. -/
def cwCntGet (cw : BitVec 16) : BitVec 16 := (cw >>> 8) &&& 7

/-- `Tg8CW_START_Get`. -/
def cwStartGet (cw : BitVec 16) : BitVec 16 := (cw >>> 6) &&& 3

/-- `Tg8CW_CLOCK_Get`. -/
def cwClockGet (cw : BitVec 16) : BitVec 16 := cw &&& 3

/-- `Tg8CW_PPML_Get`. -/
def cwPpmlGet (cw : BitVec 16) : BitVec 16 := (cw >>> 3) &&& 3

/-- Why an action is refused. -/
inductive InsertError
  | Tg8ERR_WRONG_DELAY
  | Tg8ERR_WRONG_CLOCK
  | Tg8ERR_WRONG_MODE
  deriving DecidableEq, Repr

def confOUTPUT : BitVec 16 := 1

/-- The clock in a counter configuration. -/
def clockConfiguration (clock : BitVec 16) : Except InsertError (BitVec 16) :=
  if clock = 0 then pure 0
  else if clock = 2 then pure 0x10
  else if clock = 3 then pure 0x18
  else throw .Tg8ERR_WRONG_CLOCK

/-- The start in a counter configuration. -/
def startConfiguration (start : BitVec 16) : Except InsertError (BitVec 16) :=
  if start = 0 then pure 0x40
  else if start = 1 then pure 0x80
  else if start = 2 then pure 0x20
  else throw .Tg8ERR_WRONG_MODE

/-- `GetXConfiguration`. -/
def getXConfiguration (cw : BitVec 16) : Except InsertError (BitVec 16) := do
  let int := cwIntGet cw
  let config := (if int &&& doOutput ≠ 0 then confOUTPUT else 0) |||
    (if int &&& doInterrupt ≠ 0 then 4 else 0)
  let clock ← clockConfiguration (cwClockGet cw)
  let start ← startConfiguration (cwStartGet cw)
  pure (config ||| clock ||| start)

/-- The delay that is counted: one more for an output, none for an interrupt. -/
def storedDelay (config delay : BitVec 16) : Except InsertError (BitVec 16) :=
  if config &&& confOUTPUT ≠ 0 then
    if delay = 0xFFFF then throw .Tg8ERR_WRONG_DELAY else pure (delay + 1)
  else pure 0

/-- The control word that is stored: an action that makes nothing is disabled. -/
def storedControl (cw : BitVec 16) : BitVec 16 := if cwIntGet cw = 0 then cwStateSet cw 1 else cw

/-- The row that `InsertAction` makes of a single action. -/
def storedAction (action : Tg8User) : Except InsertError Tg8Action := do
  let config ← getXConfiguration action.uControl
  let delay ← storedDelay config action.uDelay
  let cw := storedControl action.uControl
  let k := cwCntGet action.uControl
  pure
    { user := { uEvent := action.uEvent, uControl := cw, uDelay := delay }
      gate := ⟨0, 0, 0⟩
      cntControl := config
      cntNum := (if k = 0 then 7 else k - 1).setWidth 8
      enabled := if cwStateGet cw = 0 then 3 else 2
      recording := ⟨0, 0, 0, 0, 0, 0⟩ }

/-- The rows of the firmware, the trigger and the last word of each in the CAM, and `aNumOfAct`. -/
structure Firmware where
  rows : ℕ → Tg8Action
  cam : ℕ → BitVec 32 × BitVec 16
  numOfAct : ℕ

/-- `InsertAction`, of an action that is not a PPM timing; a refused one ends the model.  A line of a
PPM timing does not go to the CAM. -/
def insertAction (action : Tg8User) (addr : ℕ) (fw : Firmware) : Option Firmware :=
  match storedAction action with
  | .error _ => none
  | .ok row => some
    { rows := update fw.rows addr row
      cam :=
        if cwPpmlGet row.user.uControl = tmLine then fw.cam
        else update fw.cam addr
          (if cwStateGet row.user.uControl = 0 then
            (action.uEvent, if row.cntControl &&& confOUTPUT ≠ 0 then 0xFF else 0)
          else (0, 0))
      numOfAct := max fw.numOfAct (addr + 1) }

def Tg8Action.withGate (g : Tg8Gate) (a : Tg8Action) : Tg8Action := { a with gate := g }

/-- The dimension is stored beside the state, which is kept. -/
def Tg8Action.withDim (p : Byte) (a : Tg8Action) : Tg8Action :=
  { a with enabled := (a.enabled &&& (1 : Byte)) ||| (p <<< 1) }

/-- Row `addr` is changed. -/
def Firmware.modify (fw : Firmware) (addr : ℕ) (f : Tg8Action → Tg8Action) : Firmware :=
  { fw with rows := update fw.rows addr (f (fw.rows addr)) }

/-- One round of `Tg8OP_SET_GATE`. -/
def setGate (g : Tg8Gate) (addr : ℕ) (fw : Firmware) : Option Firmware :=
  some (fw.modify addr (Tg8Action.withGate g))

/-- One round of `Tg8OP_SET_DIM`. -/
def setDim (p : Byte) (addr : ℕ) (fw : Firmware) : Option Firmware :=
  some (fw.modify addr (Tg8Action.withDim p))

/-- The action of a row as it is reported: the delay without what has been added to it. -/
def Tg8Action.reported (a : Tg8Action) : Tg8User :=
  { a.user with uDelay := if a.user.uDelay ≠ 0 then a.user.uDelay - 1 else a.user.uDelay }

/-- The line of a row as it is reported. -/
def Tg8Action.line (a : Tg8Action) : Tg8PpmLine := ⟨a.reported, a.gate⟩

/-- `Tg8MbxOpHdr` and what follows it. -/
structure BlockData where
  row : BitVec 16
  number : BitVec 16
  buff : ℕ → Byte

/-- Where a request begins, and how many rows it is for. -/
def BlockData.addr (mb : BlockData) : ℕ := (mb.row &&& 0xFF).toNat

def BlockData.cnt (mb : BlockData) : ℕ :=
  if tg8Actions < mb.addr + mb.number.toNat then tg8Actions - mb.addr else mb.number.toNat

section Handlers

variable {α : Type*} (L : Layout α)

/-- `Tg8OP_SET_USER_TABLE` and its like. -/
def serveSet (insert : α → ℕ → Firmware → Option Firmware) (s : BlockData × Firmware) :
    Option (BlockData × Firmware) :=
  (loop (fun k fw => insert (L.item s.1.buff k) (s.1.addr + k) fw) s.1.cnt s.2).map fun fw =>
    ({ s.1 with row := BitVec.ofNat 16 (s.1.addr + s.1.cnt) }, fw)

/-- The items of `n` rows in the block. -/
def storeRows (report : Tg8Action → α) (rows : ℕ → Tg8Action) (addr : ℕ) :
    ℕ → (ℕ → Byte) → ℕ → Byte
  | 0, buff => buff
  | n + 1, buff => L.store n (report (rows (addr + n))) (storeRows report rows addr n buff)

/-- `Tg8OP_GET_USER_TABLE` and its like. -/
def serveGet (report : Tg8Action → α) (rows : ℕ → Tg8Action) (mb : BlockData) : BlockData :=
  { mb with
    row := BitVec.ofNat 16 (mb.addr + mb.cnt)
    buff := storeRows L report rows mb.addr mb.cnt mb.buff }

/-! ### The driver -/

/-- `Tg8MBX_BUFF_SIZE`, in items. -/
def blockRows : ℕ := (0x62A - 5 * 2 * tg8PpmLines) / L.size

/-- The block with the next `n` items, when `i` of them are done. -/
def fillBlock (act : ℕ → Byte) (i n : ℕ) (mb : BlockData) : BlockData :=
  { mb with
    number := BitVec.ofNat 16 n
    buff := copyWords act (i * L.size) 0 (n * L.size / 2) mb.buff }

/-- One round of the loop of `SetAction` and its like. -/
def setBlock (insert : α → ℕ → Firmware → Option Firmware) (act : ℕ → Byte) (i n : ℕ)
    (s : BlockData × Firmware) : Option (BlockData × Firmware) :=
  serveSet L insert (fillBlock L act i n s.1, s.2)

/-- `SetAction` and its like, of `cnt` items that lie at `act`. -/
def setItems (insert : α → ℕ → Firmware → Option Firmware) (act : ℕ → Byte) (row cnt : ℕ)
    (s : BlockData × Firmware) : Option (BlockData × Firmware) :=
  blockLoop (blockRows L) (setBlock L insert act) cnt 0 cnt
    ({ s.1 with row := BitVec.ofNat 16 row }, s.2)

/-- One round of the loop of `GetAction` and its like, which changes the block and what lies at
`act`. -/
def getBlock (report : Tg8Action → α) (rows : ℕ → Tg8Action) (i n : ℕ)
    (s : BlockData × (ℕ → Byte)) : Option (BlockData × (ℕ → Byte)) :=
  let mb := serveGet L report rows { s.1 with number := BitVec.ofNat 16 n }
  some (mb, copyWords mb.buff 0 (i * L.size) (n * L.size / 2) s.2)

/-- `GetAction` and its like. -/
def getItems (report : Tg8Action → α) (rows : ℕ → Tg8Action) (row cnt : ℕ)
    (s : BlockData × (ℕ → Byte)) : Option (BlockData × (ℕ → Byte)) :=
  blockLoop (blockRows L) (getBlock L report rows) cnt 0 cnt
    ({ s.1 with row := BitVec.ofNat 16 row }, s.2)

end Handlers

/-- `SetAction`. -/
def setAction : (act : ℕ → Byte) → (row cnt : ℕ) → BlockData × Firmware →
    Option (BlockData × Firmware) := setItems userLayout insertAction

/-- `SetGate`. -/
def setGates : (act : ℕ → Byte) → (row cnt : ℕ) → BlockData × Firmware →
    Option (BlockData × Firmware) := setItems gateLayout setGate

/-- `SetDim`. -/
def setDims : (act : ℕ → Byte) → (row cnt : ℕ) → BlockData × Firmware →
    Option (BlockData × Firmware) := setItems Layout.byte setDim

/-- `GetAction`. -/
def getAction : (rows : ℕ → Tg8Action) → (row cnt : ℕ) → BlockData × (ℕ → Byte) →
    Option (BlockData × (ℕ → Byte)) := getItems userLayout Tg8Action.reported

/-- `GetPpmLine`. -/
def getPpmLine : (rows : ℕ → Tg8Action) → (row cnt : ℕ) → BlockData × (ℕ → Byte) →
    Option (BlockData × (ℕ → Byte)) := getItems ppmLineLayout Tg8Action.line

/-- `GetRecording`. -/
def getRecording : (rows : ℕ → Tg8Action) → (row cnt : ℕ) → BlockData × (ℕ → Byte) →
    Option (BlockData × (ℕ → Byte)) := getItems recordingLayout Tg8Action.recording

/-! ### One block -/

section Blocks

variable {α : Type*} {L : Layout α} {mb mb' : BlockData} {fw fw' : Firmware} {a n : ℕ}

theorem addr_of_row (hrow : mb.row = BitVec.ofNat 16 a) (ha : a < tg8Actions) : mb.addr = a := by
  have hlt : a < 256 := ha
  rw [BlockData.addr, hrow, BitVec.toNat_and, BitVec.toNat_ofNat,
    show BitVec.toNat (0xFF : BitVec 16) = 2 ^ 8 - 1 from rfl, Nat.and_two_pow_sub_one_eq_mod]
  omega

theorem cnt_of_number (haddr : mb.addr = a) (hnumber : mb.number = BitVec.ofNat 16 n)
    (hn : a + n ≤ tg8Actions) : mb.cnt = n := by
  have hle : a + n ≤ 256 := hn
  have hnum : mb.number.toNat = n := by
    rw [hnumber, BitVec.toNat_ofNat]
    omega
  rw [BlockData.cnt, haddr, hnum, if_neg (Nat.not_lt.2 hn)]

/-- What an operation does with one item: row `addr` becomes what `Stored` says, and no other row is
changed. -/
def Inserts (insert : α → ℕ → Firmware → Option Firmware)
    (Stored : α → Tg8Action → Tg8Action → Prop) : Prop :=
  ∀ x addr fw fw', insert x addr fw = some fw' →
    Stored x (fw.rows addr) (fw'.rows addr) ∧ ∀ j ≠ addr, fw'.rows j = fw.rows j

theorem serveSet_stores {insert : α → ℕ → Firmware → Option Firmware}
    {Stored : α → Tg8Action → Tg8Action → Prop} (hinsert : Inserts insert Stored)
    (h : serveSet L insert (mb, fw) = some (mb', fw')) :
    mb'.row = BitVec.ofNat 16 (mb.addr + mb.cnt) ∧
      (∀ k < mb.cnt,
        Stored (L.item mb.buff k) (fw.rows (mb.addr + k)) (fw'.rows (mb.addr + k))) ∧
      ∀ j, ¬ (mb.addr ≤ j ∧ j < mb.addr + mb.cnt) → fw'.rows j = fw.rows j := by
  obtain ⟨t, ht, heq⟩ := Option.map_eq_some_iff.1 h
  obtain ⟨rfl, rfl⟩ := Prod.mk.inj heq
  exact ⟨rfl, @loop_relates _ _ _ Firmware.rows (fun k => Stored (L.item mb.buff k)) _ _ _ _ ht
    fun i t t' hi => hinsert _ _ _ _ hi⟩

theorem serveSet_returns {insert : α → ℕ → Firmware → Option Firmware}
    (hinsert : ∀ k < mb.cnt, ∀ addr fw, ∃ fw', insert (L.item mb.buff k) addr fw = some fw') :
    ∃ s, serveSet L insert (mb, fw) = some s := by
  obtain ⟨t, ht⟩ := loop_returns (P := fun _ _ => True) (s := fw) (n := mb.cnt)
    (f := fun k fw => insert (L.item mb.buff k) (mb.addr + k) fw) trivial fun i hi t _ => by
      obtain ⟨t', ht'⟩ := hinsert i hi (mb.addr + i) t
      exact ⟨t', ht', trivial⟩
  exact ⟨_, Option.map_eq_some_iff.2 ⟨t, ht, rfl⟩⟩

theorem item_copied (hsize : 2 ∣ L.size) (act buff : ℕ → Byte) (i : ℕ) {k : ℕ} (hk : k < n) :
    L.item (copyWords act (i * L.size) 0 (n * L.size / 2) buff) k = L.item act (i + k) := by
  refine L.item_congr fun b hb => ?_
  have hwords : 2 * (n * L.size / 2) = n * L.size := Nat.mul_div_cancel' (hsize.mul_left n)
  have hlast : (k + 1) * L.size ≤ n * L.size := Nat.mul_le_mul_right _ hk
  rw [Nat.add_mul] at hlast
  rw [copyWords_apply, if_pos (by omega), Nat.add_mul, Nat.sub_zero, Nat.add_assoc]

theorem item_storeRows (report : Tg8Action → α) (rows : ℕ → Tg8Action) (addr : ℕ)
    (buff : ℕ → Byte) {k : ℕ} (hk : k < n) :
    L.item (storeRows L report rows addr n buff) k = report (rows (addr + k)) := by
  induction n with
  | zero => exact absurd hk (Nat.not_lt_zero k)
  | succ n ih =>
    rw [storeRows]
    obtain rfl | hne := eq_or_ne k n
    · exact L.item_store_self k _ _
    · rw [L.item_store_of_ne hne]
      exact ih (by omega)

end Blocks

/-! ### Whole transfers -/

section Transfers

variable {α : Type*} {L : Layout α} {row cnt : ℕ}

theorem setItems_stores {insert : α → ℕ → Firmware → Option Firmware}
    {Stored : α → Tg8Action → Tg8Action → Prop} (hrows : 0 < blockRows L) (hsize : 2 ∣ L.size)
    (hinsert : Inserts insert Stored) (hin : row + cnt ≤ tg8Actions) {act : ℕ → Byte}
    {mb mb' : BlockData} {fw fw' : Firmware}
    (h : setItems L insert act row cnt (mb, fw) = some (mb', fw')) :
    (∀ k < cnt, Stored (L.item act k) (fw.rows (row + k)) (fw'.rows (row + k))) ∧
      ∀ j, ¬ (row ≤ j ∧ j < row + cnt) → fw'.rows j = fw.rows j := by
  have hrun := blockLoop_invariant (P := fun i s => s.1.row = BitVec.ofNat 16 (row + i) ∧
    (∀ k < i, Stored (L.item act k) (fw.rows (row + k)) (s.2.rows (row + k))) ∧
      ∀ j, ¬ (row ≤ j ∧ j < row + i) → s.2.rows j = fw.rows j)
    hrows cnt 0 cnt h ⟨rfl, fun k hk => absurd hk (Nat.not_lt_zero k), fun j _ => rfl⟩ ?_
  · rw [Nat.zero_add] at hrun
    exact hrun.2
  · rintro i n ⟨mb, f⟩ ⟨mb', f'⟩ - hpos - hsum ⟨hrow, hdone, hrest⟩ hserve
    -- the block begins in row `row + i`, where the firmware has left off
    have haddr : (fillBlock L act i n mb).addr = row + i :=
      addr_of_row hrow (by omega : row + i < tg8Actions)
    have hcnt : (fillBlock L act i n mb).cnt = n := cnt_of_number haddr rfl (by omega)
    obtain ⟨hnext, hnew, hkept⟩ := serveSet_stores hinsert hserve
    rw [haddr, hcnt] at hnext hnew hkept
    refine ⟨by rw [← Nat.add_assoc]; exact hnext, fun k hk => ?_, fun j hj => ?_⟩
    · by_cases hold : k < i
      · change Stored _ _ (f'.rows (row + k))
        rw [hkept (row + k) (by omega)]
        exact hdone k hold
      · obtain ⟨j, rfl⟩ := Nat.exists_eq_add_of_le (Nat.not_lt.1 hold)
        have hitem : L.item (fillBlock L act i n mb).buff j = L.item act (i + j) :=
          item_copied hsize act mb.buff i (by omega)
        have hstored := hnew j (by omega)
        rwa [hitem, hrest (row + i + j) (by omega), Nat.add_assoc] at hstored
    · change f'.rows j = fw.rows j
      rw [hkept j (by omega)]
      exact hrest j (by omega)

theorem setItems_returns {insert : α → ℕ → Firmware → Option Firmware}
    (hrows : 0 < blockRows L) (hsize : 2 ∣ L.size) (hin : row + cnt ≤ tg8Actions) {act : ℕ → Byte}
    (hinsert : ∀ k < cnt, ∀ addr fw, ∃ fw', insert (L.item act k) addr fw = some fw')
    (mb : BlockData) (fw : Firmware) :
    ∃ s, setItems L insert act row cnt (mb, fw) = some s := by
  refine blockLoop_returns (P := fun i s => s.1.row = BitVec.ofNat 16 (row + i)) hrows cnt 0 cnt
    (Nat.le_refl cnt) rfl ?_
  rintro i n ⟨mb, f⟩ - hpos - hsum hrow
  have haddr : (fillBlock L act i n mb).addr = row + i :=
    addr_of_row hrow (by omega : row + i < tg8Actions)
  have hcnt : (fillBlock L act i n mb).cnt = n := cnt_of_number haddr rfl (by omega)
  have haccept : ∀ k < (fillBlock L act i n mb).cnt, ∀ addr fw,
      ∃ fw', insert (L.item (fillBlock L act i n mb).buff k) addr fw = some fw' := by
    intro k hk
    rw [hcnt] at hk
    have hitem : L.item (fillBlock L act i n mb).buff k = L.item act (i + k) :=
      item_copied hsize act mb.buff i hk
    rw [hitem]
    exact hinsert (i + k) (by omega)
  obtain ⟨t, ht⟩ := serveSet_returns haccept
  obtain ⟨f', -, rfl⟩ := Option.map_eq_some_iff.1 ht
  refine ⟨_, ht, ?_⟩
  change BitVec.ofNat 16 ((fillBlock L act i n mb).addr + (fillBlock L act i n mb).cnt) = _
  rw [haddr, hcnt, Nat.add_assoc]

theorem getItems_items {report : Tg8Action → α} (hrows : 0 < blockRows L) (hsize : 2 ∣ L.size)
    (rows : ℕ → Tg8Action) (hin : row + cnt ≤ tg8Actions) (mb : BlockData) (mem : ℕ → Byte) :
    ∃ mb' mem', getItems L report rows row cnt (mb, mem) = some (mb', mem') ∧
      (∀ k < cnt, L.item mem' k = report (rows (row + k))) ∧
      ∀ i, cnt * L.size ≤ i → mem' i = mem i := by
  obtain ⟨⟨mb', mem'⟩, hrun⟩ : ∃ s, getItems L report rows row cnt (mb, mem) = some s :=
    blockLoop_returns (P := fun _ _ => True) hrows cnt 0 cnt (Nat.le_refl cnt) trivial
      fun i n t _ _ _ _ _ => ⟨_, rfl, trivial⟩
  refine ⟨mb', mem', hrun, ?_⟩
  have hend := blockLoop_invariant (P := fun i s => s.1.row = BitVec.ofNat 16 (row + i) ∧
    (∀ k < i, L.item s.2 k = report (rows (row + k))) ∧ ∀ b, i * L.size ≤ b → s.2 b = mem b)
    hrows cnt 0 cnt hrun ⟨rfl, fun k hk => absurd hk (Nat.not_lt_zero k), fun b _ => rfl⟩ ?_
  · rw [Nat.zero_add] at hend
    exact hend.2
  rintro i n ⟨b, m⟩ t - hpos - hsum ⟨hrow, hitems, hbehind⟩ hbody
  obtain rfl := (Option.some.inj hbody).symm
  have haddr : ({ b with number := BitVec.ofNat 16 n } : BlockData).addr = row + i :=
    addr_of_row hrow (by omega : row + i < tg8Actions)
  have hcnt : ({ b with number := BitVec.ofNat 16 n } : BlockData).cnt = n :=
    cnt_of_number haddr rfl (by omega)
  have hwords : 2 * (n * L.size / 2) = n * L.size := Nat.mul_div_cancel' (hsize.mul_left n)
  have hsplit : (i + n) * L.size = i * L.size + n * L.size := Nat.add_mul i n L.size
  refine ⟨?_, fun k hk => ?_, fun c hc => ?_⟩
  · simp only [serveGet, haddr, hcnt, Nat.add_assoc]
  · simp only [serveGet, haddr, hcnt]
    by_cases hold : k < i
    · -- an item of an earlier block
      rw [← hitems k hold]
      refine L.item_congr fun c hc => ?_
      have hlast : (k + 1) * L.size ≤ i * L.size := Nat.mul_le_mul_right _ hold
      rw [Nat.add_mul] at hlast
      rw [copyWords_apply, if_neg (by omega)]
    · obtain ⟨j, rfl⟩ := Nat.exists_eq_add_of_le (Nat.not_lt.1 hold)
      have hj : j < n := by omega
      rw [← Nat.add_assoc, ← item_storeRows report rows (row + i) b.buff hj]
      refine L.item_congr fun c hc => ?_
      have hlast : (j + 1) * L.size ≤ n * L.size := Nat.mul_le_mul_right _ hj
      rw [Nat.add_mul] at hlast
      rw [copyWords_apply, Nat.add_mul i j, if_pos (by omega), Nat.zero_add, Nat.add_assoc,
        Nat.add_sub_cancel_left]
  · simp only
    rw [copyWords_apply, if_neg (by omega)]
    exact hbehind c (by omega)

end Transfers

/-! ### Dimensions -/

/-- The bytes that reach the firmware: the words that are copied, and behind them what has been in
the block. -/
def arrived (mem buff : ℕ → Byte) (cnt k : ℕ) : Byte := if k < 2 * (cnt / 2) then mem k else buff k

theorem setDim_inserts : Inserts setDim fun p a a' => a' = a.withDim p := by
  intro p addr fw fw' h
  obtain rfl := Option.some.inj h
  exact ⟨update_self _ _ _, fun j hj => update_of_ne hj _ _⟩

theorem setDims_stores {row cnt : ℕ} (hpos : 1 ≤ cnt) (hin : row + cnt ≤ tg8Actions)
    (mem : ℕ → Byte) (mb : BlockData) (fw : Firmware) :
    ∃ mb' fw', setDims mem row cnt (mb, fw) = some (mb', fw') ∧
      (∀ k < cnt, fw'.rows (row + k) = (fw.rows (row + k)).withDim (arrived mem mb.buff cnt k)) ∧
      ∀ j, ¬ (row ≤ j ∧ j < row + cnt) → fw'.rows j = fw.rows j := by
  have hcap : cnt ≤ blockRows Layout.byte := by
    have hle : row + cnt ≤ 256 := hin
    have hrows : blockRows Layout.byte = 1338 := by decide
    omega
  obtain ⟨fuel, rfl⟩ := Nat.exists_eq_add_of_le' hpos
  set block := fillBlock Layout.byte mem 0 (fuel + 1) { mb with row := BitVec.ofNat 16 row }
  have haddr : block.addr = row := addr_of_row rfl (by omega)
  have hcnt : block.cnt = fuel + 1 := cnt_of_number haddr rfl hin
  have hrun : setDims mem row (fuel + 1) (mb, fw) = serveSet Layout.byte setDim (block, fw) :=
    blockLoop_one (Nat.succ_pos fuel) hcap 0 _
  obtain ⟨⟨mb', fw'⟩, hserve⟩ : ∃ s, serveSet Layout.byte setDim (block, fw) = some s :=
    serveSet_returns fun k _ addr fw => ⟨_, rfl⟩
  obtain ⟨-, hset, hkept⟩ := serveSet_stores setDim_inserts hserve
  rw [haddr, hcnt] at hset hkept
  refine ⟨mb', fw', hrun.trans hserve, fun k hk => ?_, hkept⟩
  have hbyte : Layout.byte.item block.buff k = arrived mem mb.buff (fuel + 1) k := by
    change copyWords mem _ 0 _ mb.buff (k * 1 + 0) = _
    simp only [copyWords_apply, arrived, Layout.byte, Nat.mul_one, Nat.add_zero, Nat.zero_add,
      Nat.zero_le, true_and, Nat.sub_zero]
  rw [hset k hk, hbyte]

/-- The dimension of a row. -/
def Tg8Action.dim (a : Tg8Action) : Byte := a.enabled >>> 1

theorem dim_withDim (a : Tg8Action) (p : Byte) : (a.withDim p).dim = p &&& (0x7F : Byte) := by
  have hone : (1 : Byte) >>> 1 = 0#8 := rfl
  rw [Tg8Action.dim, Tg8Action.withDim, BitVec.ushiftRight_or_distrib,
    BitVec.ushiftRight_and_distrib, hone, BitVec.and_zero, BitVec.zero_or]
  revert p
  decide

theorem and_eq_self_iff (p : Byte) : p &&& (0x7F : Byte) = p ↔ p.toNat < 128 := by
  revert p
  decide

/-! ### All the transfers -/

inductive Transfer
  | SetAction
  | SetGate
  | SetDim
  | GetAction
  | GetPpmLine
  | GetRecording
  deriving DecidableEq

section Right

variable (mb : BlockData) (fw : Firmware) (mem : ℕ → Byte) (row cnt : ℕ)

/-- No other row is changed. -/
def OthersKept (fw' : Firmware) : Prop := ∀ j, ¬ (row ≤ j ∧ j < row + cnt) → fw'.rows j = fw.rows j

/-- The transfer of `cnt` items at `mem` to or from the rows from `row` on does what it is for.  With
actions it comes back when the firmware accepts them all; the others always come back. -/
def Transfer.Right : Transfer → Prop
  | .SetAction =>
    ((∀ k < cnt, ∃ a, storedAction (userLayout.item mem k) = .ok a) →
      ∃ s, setAction mem row cnt (mb, fw) = some s) ∧
    ∀ mb' fw', setAction mem row cnt (mb, fw) = some (mb', fw') →
      (∀ k < cnt, storedAction (userLayout.item mem k) = .ok (fw'.rows (row + k))) ∧
        OthersKept fw row cnt fw'
  | .SetGate => ∃ mb' fw', setGates mem row cnt (mb, fw) = some (mb', fw') ∧
      (∀ k < cnt, fw'.rows (row + k) = (fw.rows (row + k)).withGate (gateLayout.item mem k)) ∧
        OthersKept fw row cnt fw'
  | .SetDim => ∃ mb' fw', setDims mem row cnt (mb, fw) = some (mb', fw') ∧
      (∀ k < cnt, (fw'.rows (row + k)).dim = Layout.byte.item mem k) ∧
        OthersKept fw row cnt fw'
  | .GetAction => ∃ mb' mem', getAction fw.rows row cnt (mb, mem) = some (mb', mem') ∧
      ∀ k < cnt, userLayout.item mem' k = (fw.rows (row + k)).reported
  | .GetPpmLine => ∃ mb' mem', getPpmLine fw.rows row cnt (mb, mem) = some (mb', mem') ∧
      ∀ k < cnt, ppmLineLayout.item mem' k = (fw.rows (row + k)).line
  | .GetRecording => ∃ mb' mem', getRecording fw.rows row cnt (mb, mem) = some (mb', mem') ∧
      ∀ k < cnt, recordingLayout.item mem' k = (fw.rows (row + k)).recording

end Right

section Transfers

variable {mb : BlockData} {fw : Firmware} {mem : ℕ → Byte} {row cnt : ℕ}

theorem insertAction_inserts :
    Inserts insertAction fun action _ a' => storedAction action = .ok a' := by
  intro action addr fw fw' h
  rw [insertAction] at h
  split at h
  · cases h
  · rename_i a ha
    obtain rfl := Option.some.inj h
    exact ⟨ha.trans (congrArg Except.ok (update_self addr a fw.rows).symm), fun j hj => update_of_ne hj _ _⟩

theorem setGate_inserts : Inserts setGate fun g a a' => a' = a.withGate g := by
  intro g addr fw fw' h
  obtain rfl := Option.some.inj h
  exact ⟨update_self _ _ _, fun j hj => update_of_ne hj _ _⟩

theorem setAction_right (hin : row + cnt ≤ tg8Actions) :
    Transfer.SetAction.Right mb fw mem row cnt := by
  refine ⟨fun hok => ?_, fun mb' fw' h => ?_⟩
  · refine setItems_returns (by decide) (by decide) hin (fun k hk addr fw => ?_) mb fw
    obtain ⟨a, ha⟩ := hok k hk
    exact ⟨_, by rw [insertAction, ha]⟩
  · exact setItems_stores (by decide) (by decide) insertAction_inserts hin h

theorem setGate_right (hin : row + cnt ≤ tg8Actions) :
    Transfer.SetGate.Right mb fw mem row cnt := by
  obtain ⟨⟨mb', fw'⟩, hrun⟩ : ∃ s, setGates mem row cnt (mb, fw) = some s :=
    setItems_returns (by decide) (by decide) hin (fun k _ addr fw => ⟨_, rfl⟩) mb fw
  exact ⟨mb', fw', hrun, setItems_stores (by decide) (by decide) setGate_inserts hin hrun⟩

theorem getAction_right (hin : row + cnt ≤ tg8Actions) :
    Transfer.GetAction.Right mb fw mem row cnt := by
  obtain ⟨mb', mem', hrun, hitems, -⟩ :=
    @getItems_items _ userLayout row cnt _ (by decide) (by decide) fw.rows hin mb mem
  exact ⟨mb', mem', hrun, hitems⟩

theorem getPpmLine_right (hin : row + cnt ≤ tg8Actions) :
    Transfer.GetPpmLine.Right mb fw mem row cnt := by
  obtain ⟨mb', mem', hrun, hitems, -⟩ :=
    @getItems_items _ ppmLineLayout row cnt _ (by decide) (by decide) fw.rows hin mb mem
  exact ⟨mb', mem', hrun, hitems⟩

theorem getRecording_right (hin : row + cnt ≤ tg8Actions) :
    Transfer.GetRecording.Right mb fw mem row cnt := by
  obtain ⟨mb', mem', hrun, hitems, -⟩ :=
    @getItems_items _ recordingLayout row cnt _ (by decide) (by decide) fw.rows hin mb mem
  exact ⟨mb', mem', hrun, hitems⟩

/-- When dimensions can be set: each has seven bits, and the last of an odd number of them is what
has been in the block. -/
def DimsFine (mb : BlockData) (mem : ℕ → Byte) (cnt : ℕ) : Prop :=
  (∀ k < cnt, (mem k).toNat < 128) ∧
    (cnt % 2 = 0 ∨ mb.buff (cnt - 1) &&& (0x7F : Byte) = mem (cnt - 1))

theorem arrived_iff (hpos : 1 ≤ cnt) :
    (∀ k < cnt, arrived mem mb.buff cnt k &&& (0x7F : Byte) = mem k) ↔ DimsFine mb mem cnt := by
  have hfits : ∀ p q : Byte, p &&& (0x7F : Byte) = q → q.toNat < 128 := by
    intro p q h
    rw [← h, BitVec.toNat_and]
    exact Nat.lt_of_le_of_lt Nat.and_le_right (by decide)
  constructor
  · intro h
    refine ⟨fun k hk => hfits _ _ (h k hk), ?_⟩
    obtain heven | hodd := Nat.mod_two_eq_zero_or_one cnt
    · exact .inl heven
    · have hlast := h (cnt - 1) (by omega)
      rw [arrived, if_neg (by omega)] at hlast
      exact .inr hlast
  · rintro ⟨hsmall, hlast⟩ k hk
    rw [arrived]
    split_ifs with hcopied
    · exact (and_eq_self_iff _).2 (hsmall k hk)
    · obtain rfl : k = cnt - 1 := by omega
      exact hlast.resolve_left (by omega)

theorem setDim_right_iff (hpos : 1 ≤ cnt) (hin : row + cnt ≤ tg8Actions) :
    Transfer.SetDim.Right mb fw mem row cnt ↔ DimsFine mb mem cnt := by
  obtain ⟨mb', fw', hrun, hset, hkept⟩ := setDims_stores hpos hin mem mb fw
  have hdim : ∀ k < cnt,
      (fw'.rows (row + k)).dim = arrived mem mb.buff cnt k &&& (0x7F : Byte) := by
    intro k hk
    rw [hset k hk, dim_withDim]
  have hright : Transfer.SetDim.Right mb fw mem row cnt ↔
      ∀ k < cnt, arrived mem mb.buff cnt k &&& (0x7F : Byte) = mem k := by
    have hitem : ∀ k, Layout.byte.item mem k = mem k := fun k => by
      simp [Layout.item, Layout.byte]
    constructor
    · rintro ⟨mb'', fw'', hrun', hdims, -⟩ k hk
      rw [hrun] at hrun'
      obtain ⟨rfl, rfl⟩ := Prod.mk.inj (Option.some.inj hrun')
      rw [← hdim k hk, hdims k hk, hitem]
    · exact fun h => ⟨mb', fw', hrun, fun k hk => by rw [hdim k hk, h k hk, hitem], hkept⟩
  rw [hright]
  exact arrived_iff hpos

/-- **Block transfers.**  Of at least one row that the table has, every transfer does what it is for,
in however many blocks, but for dimensions: there each has to fit seven bits, and the last of an odd
number of them is the byte that has been in the block. -/
theorem transfer_right_iff (t : Transfer) (hpos : 1 ≤ cnt) (hin : row + cnt ≤ tg8Actions) :
    t.Right mb fw mem row cnt ↔ (t = .SetDim → DimsFine mb mem cnt) := by
  cases t with
  | SetAction => exact iff_of_true (setAction_right hin) fun h => by cases h
  | SetGate => exact iff_of_true (setGate_right hin) fun h => by cases h
  | SetDim => exact (setDim_right_iff hpos hin).trans ⟨fun h _ => h, fun h => h rfl⟩
  | GetAction => exact iff_of_true (getAction_right hin) fun h => by cases h
  | GetPpmLine => exact iff_of_true (getPpmLine_right hin) fun h => by cases h
  | GetRecording => exact iff_of_true (getRecording_right hin) fun h => by cases h

end Transfers

/-- A module with nothing in its table. -/
def emptyFirmware : Firmware where
  rows := fun _ => ⟨⟨0, 0, 0⟩, ⟨0, 0, 0⟩, 0, 0, 0, ⟨0, 0, 0, 0, 0, 0⟩⟩
  cam := fun _ => (0, 0)
  numOfAct := 0

def emptyBlock : BlockData := ⟨0, 0, fun _ => 0⟩

/-- Two dimensions. -/
theorem transfer_right_iff_two :
    Transfer.SetDim.Right emptyBlock emptyFirmware (fun _ => 5) 254 2 :=
  (transfer_right_iff .SetDim (by decide) (by decide)).2 fun _ =>
    ⟨fun _ _ => show (5 : Byte).toNat < 128 by decide, .inl rfl⟩

/-- A single dimension does not reach the firmware. -/
theorem single_dim_lost :
    ¬ Transfer.SetDim.Right emptyBlock emptyFirmware (fun _ => 5) 0 1 := by
  rw [setDim_right_iff (by decide) (by decide), DimsFine]
  rintro ⟨-, hlast⟩
  exact absurd hlast (by decide)

end KernelModules.Tg8.Driver
