import KernelModules.Lib.Microwire

/-!
# The configuration EEPROM of the PLX 9030

`plx9030_read_eeprom` and `plx9030_write_eeprom` bit-bang a 93LC56B through the CNTRL register, whose bits
24 to 27 are the clock, the chip select, the data input and the data output of the EEPROM.

* `Plx` is the card, its CNTRL register and the EEPROM; a `World` says how wide a `long` is, when a
  programming cycle is over and what the floating data output shows, at each access;
* `rwPlx9030lcr` is the access to the register, of which the callers take no status, and
  `sendEpromCmd`, `writeEpromWord` and `readEpromWord` are the commands and the words;
* `Works` are the accesses of a little-endian CPU with a `long` of four bytes, `Is` the state of the card
  and its EEPROM; the lemmas of `Is` say what each function does to them;
* with a `long` of eight bytes, and on a big-endian CPU, the data output is `Silent`, and every write times
  out (`writeEpromWord_fails`);
* `writeEeprom_eq`: after a write that reports success the words are in the EEPROM, which is disabled
  and deselected; `readEeprom_eq` reads any words, `write_then_read` puts them together.
-/

namespace KernelModules.Utils.Plx9030

open Function KernelModules.Lib.Microwire

/-! ### The card -/

/-- `Plx9030CntrlCHIP_UNSELECT`. -/
def chipUnselect : BitVec 32 := 0x00780000

/-- `Plx9030CntrlCHIP_SELECT`. -/
def chipSelect : BitVec 32 := 0x02780000

/-- `Plx9030CntrlDATA_CLOCK`. -/
def dataClock : BitVec 32 := 0x01000000

/-- `Plx9030CntrlDATA_OUT_ONE`. -/
def dataOutOne : BitVec 32 := 0x06780000

/-- `Plx9030CntrlDATA_OUT_ZERO`. -/
def dataOutZero : BitVec 32 := 0x02780000

/-- `Plx9030CntrlDONE_FLAG`. -/
def doneFlag : BitVec 32 := 0x08000000

/-- `Plx9030CntrlDATA_IN_ONE`. -/
def dataInOne : BitVec 32 := 0x08000000

/-- `EpCmdEWDS`, `EpCmdEWEN`, `EpCmdREAD` and `EpCmdWRITE` of `EpCmd`. -/
def epCmdEWDS : BitVec 16 := 0x8000

def epCmdEWEN : BitVec 16 := 0x9800

def epCmdREAD : BitVec 16 := 0xC000

def epCmdWRITE : BitVec 16 := 0xA000

/-- `EpClkCycles`. -/
def epClkCycles : ℕ := 11

/-- `Plx9030EPROM_REGS`. -/
def epromRegs : ℕ := 68

/-- `PLX_OK`, `PLX_NOT_INITIALIZED`, `PLX_NOT_SUPPORTED` and `PLX_TIMEOUT`. -/
def plxOk : ℤ := 0

def plxNotInitialized : ℤ := 2

def plxNotSupported : ℤ := 4

def plxTimeout : ℤ := 8

/-- The bits of an address that the 93LC56B is clocked, the first one without a meaning, and its words. -/
def addressBits : ℕ := 8

def eepromWords : ℕ := 128

/-- What is outside of the driver: the width of a `long`, the byte order of the CPU, whether a programming
cycle is over at an access, and what the floating data output shows there. -/
structure World where
  longBytes : ℕ
  bigEndian : Bool
  cycleOver : ℕ → Bool
  floating : ℕ → Bool

/-- `plx_info_t`, whether its BAR is mapped, the value that CNTRL was given last, the EEPROM, and the
number of accesses so far. -/
structure Plx where
  plxRemap : Bool
  plxFlashOpen : ℕ
  cntrl : BitVec 32
  eeprom : Chip 16
  time : ℕ

variable (e : World)

/-! ### The register -/

/-- An access: a programming cycle may be over. -/
def Plx.access (s : Plx) : Plx :=
  { s with
    time := s.time + 1
    eeprom := if e.cycleOver s.time then { s.eeprom with core := s.eeprom.core.finish } else s.eeprom }

/-- `ioread32` of CNTRL. -/
def Plx.ioread (s : Plx) : BitVec 32 × Plx :=
  let s' := s.access e
  (if s'.eeprom.out eepromWords (e.floating s.time) then s.cntrl ||| doneFlag
    else s.cntrl &&& ~~~doneFlag, s')

/-- `iowrite32` of CNTRL. -/
def Plx.iowrite (v : BitVec 32) (s : Plx) : Plx :=
  let s' := s.access e
  { s' with
    cntrl := v
    eeprom := s'.eeprom.drive addressBits eepromWords (v.getLsbD 25) (v.getLsbD 24) (v.getLsbD 26) }

/-- The bytes in the other order. -/
def swab32 (v : BitVec 32) : BitVec 32 :=
  v <<< 24 ||| (v &&& 0xFF00) <<< 8 ||| (v >>> 8) &&& 0xFF00 ||| v >>> 24

/-- `le32_to_cpu` and `cpu_to_le32`. -/
def leCpu (v : BitVec 32) : BitVec 32 := if e.bigEndian then swab32 v else v

/-- Where entry `i` of an array of so many bytes each begins in `regval`. -/
def lane (bytes i : ℕ) : ℕ := 8 * (if e.bigEndian then e.longBytes - bytes * (i + 1) else bytes * i)

/-- What is written for a value of so many bytes, at the address of CNTRL. -/
def merge (size : ℕ) (regval value : BitVec 32) : Option (BitVec 32) :=
  if size = 1 then
    some ((regval &&& ~~~((0xFF : BitVec 32) <<< lane e 1 3)) ||| (value &&& 0xFF) <<< lane e 1 3)
  else if size = 2 then
    some ((regval &&& ~~~((0xFFFF : BitVec 32) <<< lane e 2 1)) ||| (value &&& 0xFFFF) <<< lane e 2 1)
  else if size = 4 then some value
  else none

/-- What is read of so many bytes. -/
def extract (size : ℕ) (regval : BitVec 32) : Option (BitVec 32) :=
  if size = 1 then some (regval >>> lane e 1 3 &&& 0xFF)
  else if size = 2 then some (regval >>> lane e 2 1 &&& 0xFFFF)
  else if size = 4 then some regval
  else none

/-- `rwPlx9030lcr` of CNTRL: the status, the value and the card. -/
def rwPlx9030lcr (value : BitVec 32) (size : ℕ) (wr : Bool) (s : Plx) : ℤ × BitVec 32 × Plx :=
  if s.plxRemap then
    let r := s.ioread e
    let regval := leCpu e r.1
    if wr then
      match merge e size regval value with
      | some regval => (plxOk, value, r.2.iowrite e (leCpu e regval))
      | none => (-plxNotSupported, value, r.2)
    else
      match extract e size regval with
      | some value => (plxOk, value, r.2)
      | none => (-plxNotSupported, value, r.2)
  else (-plxNotInitialized, value, s)

/-- A write whose status is not looked at. -/
def writeCntrl (value : BitVec 32) (size : ℕ) (s : Plx) : Plx := (rwPlx9030lcr e value size true s).2.2

/-- A read whose status is not looked at, into `cntrl`. -/
def readCntrl (cntrl : BitVec 32) (size : ℕ) (s : Plx) : BitVec 32 × Plx :=
  (rwPlx9030lcr e cntrl size false s).2

/-! ### Commands and words -/

/-- A bit that is written and clocked. -/
def clockOut (bit : Bool) (s : Plx) : Plx :=
  let cntrl := if bit then dataOutOne else dataOutZero
  writeCntrl e (cntrl ||| dataClock) e.longBytes (writeCntrl e cntrl e.longBytes s)

/-- The loop of `send_eprom_cmd` and of `write_eprom_word` over the bits. -/
def clockBits (bits : BitVec 16) : ℕ → BitVec 16 → Plx → Plx
  | 0, _, s => s
  | i + 1, msk, s => clockBits bits i (msk >>> 1) (clockOut e (msk &&& bits ≠ 0) s)

/-- `send_eprom_cmd`. -/
def sendEpromCmd (cmd adr : BitVec 16) (s : Plx) : Plx :=
  let s := writeCntrl e chipUnselect e.longBytes s
  let s := writeCntrl e (chipUnselect ||| dataClock) e.longBytes s
  let s := writeCntrl e chipUnselect e.longBytes s
  clockBits e ((0x7F &&& adr) <<< 5 ||| cmd) epClkCycles 0x8000 s

/-- The loop that reads the busy status, with `plxtmo` and `cntrl`: the last `plxtmo`. -/
def poll : ℕ → BitVec 32 → Plx → ℤ × Plx
  | 0, cntrl, s => if doneFlag &&& cntrl = 0 then (-1, s) else (0, s)
  | plxtmo + 1, cntrl, s =>
    if doneFlag &&& cntrl = 0 then
      let r := readCntrl e cntrl e.longBytes s
      poll plxtmo r.1 r.2
    else (plxtmo + 1, s)

/-- `write_eprom_word`. -/
def writeEpromWord (word : BitVec 16) (s : Plx) : ℤ × Plx :=
  let s := clockBits e word 16 0x8000 s
  let s := writeCntrl e chipUnselect e.longBytes s
  let s := writeCntrl e chipSelect 4 s
  let r := poll e 6000 chipSelect s
  let s := writeCntrl e chipUnselect e.longBytes r.2
  if r.1 ≤ 0 then (-plxTimeout, s) else (plxOk, s)

/-- The loop of `read_eprom_word`. -/
def readBits : ℕ → BitVec 16 → BitVec 16 → Plx → BitVec 16 × Plx
  | 0, _, bits, s => (bits, s)
  | i + 1, msk, bits, s =>
    let s := writeCntrl e chipSelect e.longBytes s
    let s := writeCntrl e (chipSelect ||| dataClock) e.longBytes s
    let r := readCntrl e (chipSelect ||| dataClock) e.longBytes s
    readBits i (msk >>> 1) (if r.1 &&& dataInOne ≠ 0 then bits ||| msk else bits) r.2

/-- `read_eprom_word`. -/
def readEpromWord (s : Plx) : BitVec 16 × Plx := readBits e 16 0x8000 0 s

/-- `plx9030_open`. -/
def plx9030Open (s : Plx) : Plx :=
  if s.plxFlashOpen = 0 then
    let s := writeCntrl e chipUnselect e.longBytes s
    let s := writeCntrl e (chipUnselect ||| chipSelect) e.longBytes s
    { sendEpromCmd e epCmdEWEN 0 s with plxFlashOpen := 1 }
  else s

/-- `plx9030_close`. -/
def plx9030Close (s : Plx) : Plx :=
  if s.plxFlashOpen = 1 then
    let s := sendEpromCmd e epCmdEWDS 0 s
    { writeCntrl e chipUnselect e.longBytes s with plxFlashOpen := 0 }
  else s

/-- `Plx9030Eprom_t`. -/
abbrev Eprom := ℕ → BitVec 16

/-- The loop over all registers of a read, from `cntr` on. -/
def readAll : ℕ → ℕ → Eprom → Plx → Eprom × Plx
  | 0, _, eData, s => (eData, s)
  | n + 1, cntr, eData, s =>
    let r := readEpromWord e (sendEpromCmd e epCmdREAD (BitVec.ofNat 16 cntr) s)
    readAll n (cntr + 1) (update eData cntr r.1) r.2

/-- `plx9030_read_eeprom`: how many registers have been read, the data and the card. -/
def readEeprom (reg : ℤ) (eData : Eprom) (s : Plx) : ℕ × Eprom × Plx :=
  if reg = 0 then (epromRegs, readAll e epromRegs 0 eData s)
  else if 1 ≤ reg ∧ reg ≤ epromRegs then
    let r := readEpromWord e (sendEpromCmd e epCmdREAD (BitVec.ofInt 16 (reg - 1)) s)
    (1, update eData (reg - 1).toNat r.1, r.2)
  else (0, eData, s)

/-- The loop over all registers of a write, from `cntr` on. -/
def writeAll (eData : Eprom) : ℕ → ℕ → Plx → ℕ × Plx
  | 0, cntr, s => (cntr, s)
  | n + 1, cntr, s =>
    let r := writeEpromWord e (eData cntr) (sendEpromCmd e epCmdWRITE (BitVec.ofNat 16 cntr) s)
    if r.1 ≠ plxOk then (0, r.2) else writeAll eData n (cntr + 1) r.2

/-- `plx9030_write_eeprom`: how many registers have been written, and the card. -/
def writeEeprom (reg : ℤ) (eData : Eprom) (s : Plx) : ℕ × Plx :=
  let s := plx9030Open e s
  let r :=
    if reg = 0 then writeAll e eData epromRegs 0 s
    else if 1 ≤ reg ∧ reg ≤ epromRegs then
      let r := writeEpromWord e (eData (reg - 1).toNat)
        (sendEpromCmd e epCmdWRITE (BitVec.ofInt 16 (reg - 1)) s)
      (if r.1 = plxOk then 1 else 0, r.2)
    else (0, s)
  (r.1, plx9030Close e r.2)

/-! ### Accesses that reach the EEPROM -/

variable {e : World}

/-- The accesses are those of a little-endian CPU with a `long` of four bytes to a card that is mapped. -/
structure Works (e : World) (s : Plx) : Prop where
  remap : s.plxRemap = true
  long : e.longBytes = 4
  little : e.bigEndian = false

/-- The card is open or not, and the EEPROM in a state. -/
structure Is (e : World) (s : Plx) (flash : ℕ) (core : Core 16) (cs clk : Bool) : Prop where
  works : Works e s
  flash : s.plxFlashOpen = flash
  eeprom : s.eeprom = ⟨core, cs, clk⟩

variable {s : Plx} {flash : ℕ} {core : Core 16} {cs clk : Bool}

theorem Is.access (h : Is e s flash core cs clk) :
    Is e (s.access e) flash (if e.cycleOver s.time then core.finish else core) cs clk := by
  refine ⟨⟨h.works.remap, h.works.long, h.works.little⟩, h.flash, ?_⟩
  unfold Plx.access
  rw [h.eeprom]
  split <;> rfl

theorem Is.access_of_not (h : Is e s flash core cs clk) (hp : ¬ core.phase.Programming) :
    Is e (s.access e) flash core cs clk := by
  have hacc := h.access
  rwa [finish_eq hp, ite_self] at hacc

theorem writeCntrl_of_works (h : Works e s) (v : BitVec 32) :
    writeCntrl e v 4 s = (s.access e).iowrite e v := by
  unfold writeCntrl rwPlx9030lcr leCpu
  rw [if_pos h.remap, h.little]
  rfl

theorem Is.iowrite (h : Is e s flash core cs clk) (hp : ¬ core.phase.Programming) (v : BitVec 32) :
    Is e (s.iowrite e v) flash
      (if v.getLsbD 25 then (if !clk && v.getLsbD 24 then core.rise addressBits eepromWords (v.getLsbD 26)
        else core) else core.deselect) (v.getLsbD 25) (v.getLsbD 24) := by
  have hacc := h.access_of_not hp
  refine ⟨⟨h.works.remap, h.works.long, h.works.little⟩, h.flash, ?_⟩
  unfold Plx.iowrite
  dsimp only
  rw [hacc.eeprom]
  rfl

theorem Is.writeCntrl (h : Is e s flash core cs clk) (hp : ¬ core.phase.Programming) (v : BitVec 32) :
    Is e (writeCntrl e v e.longBytes s) flash
      (if v.getLsbD 25 then (if !clk && v.getLsbD 24 then core.rise addressBits eepromWords (v.getLsbD 26)
        else core) else core.deselect) (v.getLsbD 25) (v.getLsbD 24) := by
  rw [h.works.long, writeCntrl_of_works h.works]
  exact (h.access_of_not hp).iowrite hp v

theorem Is.unselect (h : Is e s flash core cs clk) (hp : ¬ core.phase.Programming) :
    Is e (Plx9030.writeCntrl e chipUnselect e.longBytes s) flash core.deselect false false :=
  h.writeCntrl hp chipUnselect

theorem Is.select (h : Is e s flash core cs clk) (hp : ¬ core.phase.Programming) {v : BitVec 32}
    (hcs : v.getLsbD 25 = true) (hclk : v.getLsbD 24 = false) :
    Is e (Plx9030.writeCntrl e v e.longBytes s) flash core true false := by
  have hset := h.writeCntrl hp v
  rwa [hcs, hclk, if_pos rfl, Bool.and_false, if_neg Bool.false_ne_true] at hset

theorem Is.clockUp (h : Is e s flash core cs false) (hp : ¬ core.phase.Programming) {v : BitVec 32}
    (hcs : v.getLsbD 25 = true) (hclk : v.getLsbD 24 = true) :
    Is e (Plx9030.writeCntrl e v e.longBytes s) flash
      (core.rise addressBits eepromWords (v.getLsbD 26)) true true := by
  have hset := h.writeCntrl hp v
  rwa [hcs, hclk, if_pos rfl, Bool.not_false, Bool.and_true, if_pos rfl] at hset

theorem Is.clockOut (h : Is e s flash core cs clk) (hp : ¬ core.phase.Programming) (bit : Bool) :
    Is e (clockOut e bit s) flash (core.rise addressBits eepromWords bit) true true := by
  cases bit
  · exact (h.select hp (by decide) (by decide)).clockUp hp (by decide) (by decide)
  · exact (h.select hp (by decide) (by decide)).clockUp hp (by decide) (by decide)

theorem mask_and_ne_zero (bits : BitVec 16) {k : ℕ} (hk : k < 16) :
    decide (((0x8000 : BitVec 16) >>> k) &&& bits ≠ 0) = bits.getMsbD k := by
  have hmask : (0x8000 : BitVec 16) >>> k = BitVec.twoPow 16 (15 - k) := by
    have hall : ∀ j : Fin 16, (0x8000 : BitVec 16) >>> j.val = BitVec.twoPow 16 (15 - j.val) := by decide
    exact hall ⟨k, hk⟩
  rw [hmask, BitVec.and_comm, BitVec.and_twoPow, BitVec.getMsbD, decide_eq_true hk, Bool.true_and,
    show 16 - 1 - k = 15 - k by omega]
  cases bits.getLsbD (15 - k) with
  | false => rfl
  | true =>
    have hne : ∀ j : Fin 16, BitVec.twoPow 16 (15 - j.val) ≠ 0 := by decide
    exact decide_eq_true (hne ⟨k, hk⟩)

theorem Is.clockBits (h : Is e s flash core cs clk) (hp : ¬ core.phase.Programming) (bits : BitVec 16)
    {i k : ℕ} (hk : k + i < 16) :
    Is e (clockBits e bits (i + 1) ((0x8000 : BitVec 16) >>> k) s) flash
      (((List.range (i + 1)).map fun j => bits.getMsbD (k + j)).foldl
        (Core.rise addressBits eepromWords) core) true true := by
  induction i generalizing k s core cs clk with
  | zero =>
    have hbit := h.clockOut hp (bits.getMsbD k)
    rw [← mask_and_ne_zero bits (by omega)] at hbit
    rw [List.range_one, List.map_singleton, List.foldl_cons, Nat.add_zero, ← mask_and_ne_zero bits hk]
    exact hbit
  | succ i ih =>
    have hbit := h.clockOut hp (bits.getMsbD k)
    have hrest := ih hbit (not_programming_rise hp _) (show k + 1 + i < 16 by omega)
    rw [Plx9030.clockBits, ← BitVec.shiftRight_add, mask_and_ne_zero bits (by omega),
      List.range_succ_eq_map, List.map_cons, List.map_map, List.foldl_cons, Nat.add_zero]
    have hfun : (fun j => bits.getMsbD (k + 1 + j)) = (fun j => bits.getMsbD (k + j)) ∘ Nat.succ := by
      funext j
      exact congrArg bits.getMsbD (show k + 1 + j = k + (j + 1) by omega)
    rwa [hfun] at hrest

/-! ### Commands -/

theorem not_programming_of_quiet (h : core.phase.Quiet) : ¬ core.phase.Programming := by
  cases hphase : core.phase with
  | programming act =>
    rw [hphase] at h
    exact h.elim
  | _ => exact id

/-- The bits of a command. -/
def commandBits (cmd adr : BitVec 16) : List Bool :=
  (List.range epClkCycles).map ((0x7F &&& adr) <<< 5 ||| cmd).getMsbD

theorem Is.sendEpromCmd (h : Is e s flash core cs clk) (hq : core.phase.Quiet) {cmd adr : BitVec 16}
    {op addr : List Bool} (hbits : commandBits cmd adr = true :: (op ++ addr)) (hop : op.length = 2)
    (haddr : addr.length = addressBits) :
    Is e (sendEpromCmd e cmd adr s) flash (core.deselect.execute eepromWords op addr) true true := by
  have hstart := deselect_eq hq
  have hidle : ¬ core.deselect.phase.Programming := by
    rcases hstart with h | h <;> rw [h] <;> exact id
  have hlow : Is e (Plx9030.writeCntrl e (chipUnselect ||| dataClock) e.longBytes
      (Plx9030.writeCntrl e chipUnselect e.longBytes s)) flash core.deselect false true := by
    have hup := (h.unselect (not_programming_of_quiet hq)).writeCntrl hidle
      (chipUnselect ||| dataClock)
    rw [if_neg (by decide), deselect_eq_self hstart] at hup
    exact hup
  have hdown := hlow.unselect hidle
  rw [deselect_eq_self hstart] at hdown
  have hsent := hdown.clockBits hidle ((0x7F &&& adr) <<< 5 ||| cmd)
    (show 0 + (epClkCycles - 1) < 16 by decide)
  have hlist : ((List.range (epClkCycles - 1 + 1)).map fun j =>
      ((0x7F &&& adr) <<< 5 ||| cmd).getMsbD (0 + j)) = commandBits cmd adr := by
    unfold commandBits
    congr 1
    funext j
    rw [Nat.zero_add]
  rw [hlist, hbits, instruction_eq hstart hop haddr] at hsent
  exact hsent

/-- The address bits of a word. -/
def wordAddress (a : ℕ) : List Bool := (List.range addressBits).map (BitVec.ofNat 8 a).getMsbD

theorem length_wordAddress (a : ℕ) : (wordAddress a).length = addressBits := by
  rw [wordAddress, List.length_map, List.length_range]

theorem ofBits_wordAddress {a : ℕ} (ha : a < eepromWords) :
    ofBits (wordAddress a) % eepromWords = a := by
  have ha' : a < 128 := ha
  show ofBits ((List.range 8).map (BitVec.ofNat 8 a).getMsbD) % eepromWords = a
  rw [ofBits_getMsbD _ le_rfl, Nat.sub_self, Nat.pow_zero, Nat.div_one, BitVec.toNat_ofNat,
    Nat.mod_eq_of_lt (show a < 2 ^ 8 by omega), Nat.mod_eq_of_lt ha]

theorem commandBits_read {a : ℕ} (ha : a < eepromWords) :
    commandBits epCmdREAD (BitVec.ofNat 16 a) = true :: ([true, false] ++ wordAddress a) := by
  have hall : ∀ a : Fin 128, commandBits epCmdREAD (BitVec.ofNat 16 a.val) =
      true :: ([true, false] ++ wordAddress a.val) := by decide +kernel
  exact hall ⟨a, ha⟩

theorem commandBits_write {a : ℕ} (ha : a < eepromWords) :
    commandBits epCmdWRITE (BitVec.ofNat 16 a) = true :: ([false, true] ++ wordAddress a) := by
  have hall : ∀ a : Fin 128, commandBits epCmdWRITE (BitVec.ofNat 16 a.val) =
      true :: ([false, true] ++ wordAddress a.val) := by decide +kernel
  exact hall ⟨a, ha⟩

theorem Is.sendRead (h : Is e s flash core cs clk) (hq : core.phase.Quiet) {a : ℕ}
    (ha : a < eepromWords) :
    Is e (Plx9030.sendEpromCmd e epCmdREAD (BitVec.ofNat 16 a) s) flash
      ⟨core.mem, core.enabled, .reading a 0⟩ true true := by
  have hcmd := h.sendEpromCmd hq (commandBits_read ha) rfl (length_wordAddress a)
  rw [Core.execute, deselect_mem, deselect_enabled, ofBits_wordAddress ha] at hcmd
  exact hcmd

theorem Is.sendWrite (h : Is e s flash core cs clk) (hq : core.phase.Quiet)
    (henabled : core.enabled = true) {a : ℕ} (ha : a < eepromWords) :
    Is e (Plx9030.sendEpromCmd e epCmdWRITE (BitVec.ofNat 16 a) s) flash
      ⟨core.mem, true, .data (fun x m => update m a x) []⟩ true true := by
  have hcmd := h.sendEpromCmd hq (commandBits_write ha) rfl (length_wordAddress a)
  rw [Core.execute, Core.ifEnabled, deselect_enabled, deselect_mem, henabled, if_pos rfl,
    ofBits_wordAddress ha] at hcmd
  exact hcmd

theorem Is.plx9030Open (h : Is e s 0 core cs clk) (hq : core.phase.Quiet) :
    Is e (plx9030Open e s) 1 ⟨core.mem, true, .done⟩ true true := by
  have hstart := deselect_eq hq
  have hidle : core.deselect.phase.Quiet := by
    rcases hstart with h | h <;> rw [h] <;> exact trivial
  have hsel := @Is.select e _ _ _ _ _ (h.unselect (not_programming_of_quiet hq))
    (not_programming_of_quiet hidle) (chipUnselect ||| chipSelect) (by decide) (by decide)
  have hbits : commandBits epCmdEWEN 0 = true :: ([false, false] ++
      [true, true, false, false, false, false, false, false]) := by decide
  have hcmd := hsel.sendEpromCmd hidle hbits rfl rfl
  have hexec : core.deselect.deselect.execute eepromWords [false, false]
      [true, true, false, false, false, false, false, false] = ⟨core.mem, true, .done⟩ := by
    show (⟨core.deselect.deselect.mem, true, .done⟩ : Core 16) = _
    rw [deselect_mem, deselect_mem]
  rw [hexec] at hcmd
  unfold Plx9030.plx9030Open
  rw [if_pos h.flash]
  exact ⟨⟨hcmd.works.remap, hcmd.works.long, hcmd.works.little⟩, rfl, hcmd.eeprom⟩

theorem Is.plx9030Close (h : Is e s 1 core cs clk) (hq : core.phase.Quiet) :
    Is e (plx9030Close e s) 0 ⟨core.mem, false, .standby⟩ false false := by
  have hbits : commandBits epCmdEWDS 0 = true :: ([false, false] ++
      [false, false, false, false, false, false, false, false]) := by decide
  have hcmd := h.sendEpromCmd hq hbits rfl rfl
  have hexec : core.deselect.execute eepromWords [false, false]
      [false, false, false, false, false, false, false, false] = ⟨core.mem, false, .done⟩ := by
    show (⟨core.deselect.mem, false, .done⟩ : Core 16) = _
    rw [deselect_mem]
  rw [hexec] at hcmd
  have hoff := hcmd.unselect id
  unfold Plx9030.plx9030Close
  rw [if_pos h.flash]
  exact ⟨⟨hoff.works.remap, hoff.works.long, hoff.works.little⟩, rfl, hoff.eeprom⟩

/-! ### Writing a word -/

variable {act : Mem 16 → Mem 16} {mem : Mem 16}

/-- A programming cycle is under way, or it is over. -/
def Cycle (act : Mem 16 → Mem 16) (mem : Mem 16) (core : Core 16) : Prop :=
  core = ⟨mem, true, .programming act⟩ ∨ core = ⟨act mem, true, .ready⟩

theorem Cycle.finish (h : Cycle act mem core) : core.finish = ⟨act mem, true, .ready⟩ := by
  rcases h with rfl | rfl <;> rfl

theorem Is.access_cycle (h : Is e s flash core cs clk) (hc : Cycle act mem core) :
    ∃ core', Is e (s.access e) flash core' cs clk ∧ Cycle act mem core' := by
  refine ⟨_, h.access, ?_⟩
  split
  · exact .inr hc.finish
  · exact hc

theorem Is.select_cycle (h : Is e s flash core cs clk) (hc : Cycle act mem core) :
    ∃ core', Is e (Plx9030.writeCntrl e chipSelect 4 s) flash core' true false ∧
      Cycle act mem core' := by
  obtain ⟨core₁, h₁, hc₁⟩ := h.access_cycle hc
  obtain ⟨core₂, h₂, hc₂⟩ := h₁.access_cycle hc₁
  rw [writeCntrl_of_works h.works]
  refine ⟨core₂, ⟨⟨h.works.remap, h.works.long, h.works.little⟩, h.flash, ?_⟩, hc₂⟩
  unfold Plx.iowrite
  dsimp only
  rw [h₂.eeprom]
  show (⟨if !clk && false then _ else core₂, true, false⟩ : Chip 16) = _
  rw [Bool.and_false, if_neg Bool.false_ne_true]

theorem readCntrl_of_works (h : Works e s) (cntrl : BitVec 32) :
    readCntrl e cntrl e.longBytes s = s.ioread e := by
  unfold readCntrl rwPlx9030lcr leCpu
  rw [if_pos h.remap, h.little, h.long]
  rfl

theorem ioread_and (flag : BitVec 32) (hflag : flag = doneFlag) :
    ((s.ioread e).1 &&& flag ≠ 0) ↔ (s.access e).eeprom.out eepromWords (e.floating s.time) = true := by
  subst hflag
  unfold Plx.ioread
  dsimp only
  have hone : (s.cntrl ||| doneFlag) &&& doneFlag ≠ 0 := by
    intro h
    have hbit := congrArg (fun v => v.getLsbD 27) h
    simp [doneFlag] at hbit
  have hzero : (s.cntrl &&& ~~~doneFlag) &&& doneFlag = 0 := by
    rw [BitVec.and_assoc, show ~~~doneFlag &&& doneFlag = 0#32 by decide, BitVec.and_zero]
    rfl
  cases (s.access e).eeprom.out eepromWords (e.floating s.time) with
  | true => exact ⟨fun _ => rfl, fun _ => hone⟩
  | false => exact ⟨fun h => absurd hzero h, fun h => absurd h Bool.false_ne_true⟩

theorem poll_done {plxtmo : ℕ} {cntrl : BitVec 32} (h : doneFlag &&& cntrl ≠ 0) :
    poll e plxtmo cntrl s = ((plxtmo : ℤ), s) := by
  cases plxtmo with
  | zero => exact if_neg h
  | succ plxtmo => exact if_neg h

theorem Is.poll (h : Is e s flash core true clk) (hc : Cycle act mem core) {plxtmo : ℕ}
    {cntrl : BitVec 32} (hdone : doneFlag &&& cntrl = 0) (hr : 0 < (poll e plxtmo cntrl s).1) :
    Is e (poll e plxtmo cntrl s).2 flash ⟨act mem, true, .ready⟩ true clk := by
  induction plxtmo generalizing s core cntrl with
  | zero =>
    rw [Plx9030.poll, if_pos hdone] at hr
    exact absurd (show (0 : ℤ) < -1 from hr) (by decide)
  | succ plxtmo ih =>
    obtain ⟨core', h', hc'⟩ := h.access_cycle hc
    rw [Plx9030.poll, if_pos hdone, readCntrl_of_works h.works] at hr ⊢
    have hout := ioread_and (e := e) (s := s) doneFlag rfl
    rw [h'.eeprom] at hout
    rcases hc' with rfl | rfl
    · have hnot : doneFlag &&& (s.ioread e).1 = 0 := by
        by_contra hne
        rw [BitVec.and_comm] at hne
        exact absurd (hout.mp hne) Bool.false_ne_true
      exact ih h' (.inl rfl) hnot hr
    · have hset : doneFlag &&& (s.ioread e).1 ≠ 0 := by
        rw [BitVec.and_comm]
        exact hout.mpr rfl
      dsimp only
      rw [poll_done hset]
      exact h'

theorem Is.writeEpromWord {put : BitVec 16 → Mem 16 → Mem 16}
    (h : Is e s flash ⟨mem, true, .data put []⟩ true true) {word : BitVec 16}
    (hr : (writeEpromWord e word s).1 = plxOk) :
    Is e (writeEpromWord e word s).2 flash ⟨put word mem, true, .ready⟩ false false := by
  have hbits := h.clockBits id word (show 0 + 15 < 16 by decide)
  have hlist : (fun j => word.getMsbD (0 + j)) = word.getMsbD := by
    funext j
    rw [Nat.zero_add]
  rw [hlist, data_eq rfl (by decide) word] at hbits
  have hoff : Is e (Plx9030.writeCntrl e chipUnselect e.longBytes (Plx9030.clockBits e word 16 0x8000 s))
      flash ⟨mem, true, .programming (put word)⟩ false false := hbits.unselect id
  obtain ⟨core', hsel, hc⟩ := hoff.select_cycle (.inl rfl)
  have hpos : 0 < (Plx9030.poll e 6000 chipSelect (Plx9030.writeCntrl e chipSelect 4
      (Plx9030.writeCntrl e chipUnselect e.longBytes (Plx9030.clockBits e word 16 0x8000 s)))).1 := by
    by_contra hle
    unfold Plx9030.writeEpromWord at hr
    dsimp only at hr
    rw [if_pos (Int.not_lt.mp hle)] at hr
    exact absurd (show -plxTimeout = plxOk from hr) (by decide)
  have hend := (hsel.poll hc (by decide) hpos).unselect id
  unfold Plx9030.writeEpromWord
  dsimp only
  rw [if_neg (Int.not_le.mpr hpos)]
  exact hend

/-! ### Reading a word -/

/-- The card after the two writes of a bit. -/
def clockRead (e : World) (s : Plx) : Plx :=
  writeCntrl e (chipSelect ||| dataClock) e.longBytes (writeCntrl e chipSelect e.longBytes s)

theorem Is.readBit {a k : ℕ} {enabled : Bool}
    (h : Is e s flash ⟨mem, enabled, .reading a k⟩ true clk) {r : BitVec 32 × Plx}
    (hr : readCntrl e (chipSelect ||| dataClock) e.longBytes (clockRead e s) = r) :
    Is e r.2 flash ⟨mem, enabled, .reading a (k + 1)⟩ true true ∧
      (r.1 &&& dataInOne ≠ 0 ↔
        (mem ((a + k / 16) % eepromWords)).getMsbD (k % 16) = true) := by
  have hup : Is e (clockRead e s) flash ⟨mem, enabled, .reading a (k + 1)⟩ true true :=
    (h.select id (by decide) (by decide)).clockUp id (by decide) (by decide)
  rw [readCntrl_of_works hup.works] at hr
  subst hr
  have hread := hup.access_of_not id
  refine ⟨hread, ?_⟩
  rw [ioread_and dataInOne rfl, hread.eeprom]
  rfl

theorem Is.readBits {a : ℕ} (ha : a < eepromWords) {enabled : Bool} {i k : ℕ} (hk : k + i = 16)
    (h : Is e s flash ⟨mem, enabled, .reading a k⟩ true clk) {bits : BitVec 16}
    (hbits : ∀ j < 16, bits.getMsbD j = (decide (j < k) && (mem a).getMsbD j)) :
    (readBits e i ((0x8000 : BitVec 16) >>> k) bits s).1 = mem a ∧
      ∃ clk', Is e (readBits e i ((0x8000 : BitVec 16) >>> k) bits s).2 flash
        ⟨mem, enabled, .reading a 16⟩ true clk' := by
  induction i generalizing k s clk bits with
  | zero =>
    obtain rfl : k = 16 := by omega
    refine ⟨?_, clk, h⟩
    apply BitVec.eq_of_getMsbD_eq
    intro j hj
    show bits.getMsbD j = _
    rw [hbits j hj, decide_eq_true hj, Bool.true_and]
  | succ i ih =>
    obtain ⟨hnext, hbit⟩ := h.readBit rfl
    rw [Nat.div_eq_of_lt (by omega), Nat.add_zero, Nat.mod_eq_of_lt ha,
      Nat.mod_eq_of_lt (show k < 16 by omega)] at hbit
    -- the mask is the bit that is read
    have hmask : ∀ j < 16, ((0x8000 : BitVec 16) >>> k).getMsbD j = decide (j = k) := by
      have hall : ∀ j k : Fin 16, ((0x8000 : BitVec 16) >>> k.val).getMsbD j.val =
          decide (j.val = k.val) := by decide
      exact fun j hj => hall ⟨j, hj⟩ ⟨k, by omega⟩
    rw [Plx9030.readBits, ← BitVec.shiftRight_add]
    refine ih (show k + 1 + i = 16 by omega) hnext fun j hj => ?_
    split
    · rename_i hset
      rw [BitVec.getMsbD_or, hbits j hj, hmask j hj]
      have hbit' := hbit.mp hset
      obtain hlt | rfl | hgt := Nat.lt_trichotomy j k
      · rw [decide_eq_true hlt, decide_eq_false hlt.ne, decide_eq_true (show j < k + 1 by omega),
          Bool.or_false]
      · rw [decide_eq_false (lt_irrefl j), decide_eq_true (rfl : j = j),
          decide_eq_true (Nat.lt_succ_self j), hbit']
        rfl
      · rw [decide_eq_false hgt.not_gt, decide_eq_false hgt.ne', decide_eq_false (by omega)]
        rfl
    · rename_i hclear
      have hbit' : (mem a).getMsbD k = false := by
        cases hk' : (mem a).getMsbD k with
        | true => exact absurd (hbit.mpr hk') hclear
        | false => rfl
      rw [hbits j hj]
      obtain hlt | rfl | hgt := Nat.lt_trichotomy j k
      · rw [decide_eq_true hlt, decide_eq_true (show j < k + 1 by omega)]
      · rw [hbit', Bool.and_false, Bool.and_false]
      · rw [decide_eq_false hgt.not_gt, decide_eq_false (by omega)]

theorem Is.readEpromWord {a : ℕ} (ha : a < eepromWords) {enabled : Bool}
    (h : Is e s flash ⟨mem, enabled, .reading a 0⟩ true true) :
    (readEpromWord e s).1 = mem a ∧
      ∃ clk', Is e (readEpromWord e s).2 flash ⟨mem, enabled, .reading a 16⟩ true clk' :=
  h.readBits ha (show 0 + 16 = 16 from rfl) fun j _ => by
    rw [decide_eq_false (Nat.not_lt_zero j), Bool.false_and]
    exact BitVec.getMsbD_zero

/-! ### All registers -/

theorem Is.readAll (h : Is e s flash core cs clk) (hq : core.phase.Quiet) {n cntr : ℕ}
    (hn : cntr + n ≤ eepromWords) (eData : Eprom) (i : ℕ) :
    (readAll e n cntr eData s).1 i =
      if cntr ≤ i ∧ i < cntr + n then core.mem i else eData i := by
  induction n generalizing s core cs clk cntr eData with
  | zero => exact (if_neg (by omega)).symm
  | succ n ih =>
    obtain ⟨hword, clk', hnext⟩ := (h.sendRead hq (show cntr < eepromWords by omega)).readEpromWord
      (show cntr < eepromWords by omega)
    rw [Plx9030.readAll, ih hnext trivial (by omega), hword]
    by_cases hi : i = cntr
    · subst hi
      rw [if_neg (by omega), if_pos (by omega), update_self]
    · rw [update_of_ne hi]
      by_cases hin : cntr ≤ i ∧ i < cntr + (n + 1)
      · rw [if_pos hin, if_pos (by omega)]
      · rw [if_neg hin, if_neg (by omega)]

theorem Is.writeAll (h : Is e s 1 core cs clk) (hq : core.phase.Quiet) (henabled : core.enabled = true)
    {eData : Eprom} {n cntr : ℕ} (hn : cntr + n ≤ eepromWords)
    (hok : (writeAll e eData n cntr s).1 ≠ 0) :
    (writeAll e eData n cntr s).1 = cntr + n ∧
      ∃ core' cs' clk', Is e (writeAll e eData n cntr s).2 1 core' cs' clk' ∧ core'.phase.Quiet ∧
        ∀ i, core'.mem i = if cntr ≤ i ∧ i < cntr + n then eData i else core.mem i := by
  induction n generalizing s core cs clk cntr with
  | zero => exact ⟨rfl, core, cs, clk, h, hq, fun i => (if_neg (by omega)).symm⟩
  | succ n ih =>
    have hsend := h.sendWrite hq henabled (show cntr < eepromWords by omega)
    rw [Plx9030.writeAll] at hok ⊢
    by_cases hword : (Plx9030.writeEpromWord e (eData cntr)
        (Plx9030.sendEpromCmd e epCmdWRITE (BitVec.ofNat 16 cntr) s)).1 = plxOk
    · rw [if_neg (not_not.mpr hword)] at hok ⊢
      obtain ⟨hcount, core', cs', clk', his, hq', hmem⟩ :=
        ih (hsend.writeEpromWord hword) trivial rfl (by omega) hok
      refine ⟨by rw [hcount]; omega, core', cs', clk', his, hq', fun i => ?_⟩
      rw [hmem i]
      dsimp only
      by_cases hi : i = cntr
      · subst hi
        rw [if_neg (by omega), if_pos (by omega), update_self]
      · rw [update_of_ne hi]
        by_cases hin : cntr ≤ i ∧ i < cntr + (n + 1)
        · rw [if_pos hin, if_pos (by omega)]
        · rw [if_neg hin, if_neg (by omega)]
    · rw [if_pos hword] at hok
      exact absurd rfl hok

/-! ### Accesses that do not reach the EEPROM -/

@[simp] theorem writeCntrl_plxRemap (v : BitVec 32) (size : ℕ) :
    (writeCntrl e v size s).plxRemap = s.plxRemap := by
  unfold writeCntrl rwPlx9030lcr
  split
  · rw [if_pos rfl]
    split <;> rfl
  · rfl

@[simp] theorem clockOut_plxRemap (bit : Bool) : (clockOut e bit s).plxRemap = s.plxRemap := by
  simp [clockOut]

@[simp] theorem clockBits_plxRemap (bits msk : BitVec 16) (i : ℕ) :
    (clockBits e bits i msk s).plxRemap = s.plxRemap := by
  induction i generalizing s msk with
  | zero => rfl
  | succ i ih => rw [clockBits, ih, clockOut_plxRemap]

@[simp] theorem sendEpromCmd_plxRemap (cmd adr : BitVec 16) :
    (sendEpromCmd e cmd adr s).plxRemap = s.plxRemap := by
  simp [sendEpromCmd]

@[simp] theorem plx9030Open_plxRemap : (plx9030Open e s).plxRemap = s.plxRemap := by
  unfold plx9030Open
  split
  · simp
  · rfl

/-- The data output never shows. -/
def Silent (e : World) (s : Plx) : Prop :=
  s.plxRemap = false ∨ e.longBytes = 8 ∨ e.longBytes = 4 ∧ e.bigEndian = true ∧ s.cntrl.getLsbD 3 = false

theorem doneFlag_and_swab32 {v : BitVec 32} (h : v.getLsbD 3 = false) : doneFlag &&& swab32 v = 0 := by
  have hbit : (swab32 v).getLsbD 27 = false := by
    have h3 : v[3] = false := h
    simp [swab32, h3]
  rw [show doneFlag = BitVec.twoPow 32 27 by decide, BitVec.and_comm, BitVec.and_twoPow, hbit]
  rfl

theorem ioread_getLsbD (h : s.cntrl.getLsbD 3 = false) : (s.ioread e).1.getLsbD 3 = false := by
  unfold Plx.ioread
  dsimp only
  split
  · rw [BitVec.getLsbD_or, h]
    rfl
  · rw [BitVec.getLsbD_and, h]
    rfl

theorem Silent.read (h : Silent e s) {cntrl : BitVec 32} (hdone : doneFlag &&& cntrl = 0) :
    doneFlag &&& (readCntrl e cntrl e.longBytes s).1 = 0 ∧
      Silent e (readCntrl e cntrl e.longBytes s).2 := by
  unfold readCntrl rwPlx9030lcr
  split
  · rename_i hmap
    rcases h with hnot | hlong | ⟨hlong, hbig, hbit⟩
    · exact absurd (hmap.symm.trans hnot) (by decide)
    · rw [hlong]
      exact ⟨hdone, .inr (.inl hlong)⟩
    · unfold leCpu
      rw [hlong, hbig]
      exact ⟨doneFlag_and_swab32 (ioread_getLsbD hbit), .inr (.inr ⟨hlong, hbig, hbit⟩)⟩
  · exact ⟨hdone, h⟩

theorem Silent.poll (h : Silent e s) {cntrl : BitVec 32} (hdone : doneFlag &&& cntrl = 0)
    (plxtmo : ℕ) : (poll e plxtmo cntrl s).1 ≤ 0 := by
  induction plxtmo generalizing s cntrl with
  | zero =>
    rw [Plx9030.poll, if_pos hdone]
    exact (show (-1 : ℤ) ≤ 0 by decide)
  | succ plxtmo ih =>
    rw [Plx9030.poll, if_pos hdone]
    exact ih (h.read hdone).2 (h.read hdone).1

theorem silent_select (hlong : e.longBytes = 4 ∨ e.longBytes = 8) (h : ¬ Works e s) :
    Silent e (writeCntrl e chipSelect 4 s) := by
  by_cases hmap : s.plxRemap = true
  · rcases hlong with hlong | hlong
    · have hbig : e.bigEndian = true := by
        cases hb : e.bigEndian with
        | true => rfl
        | false => exact absurd ⟨hmap, hlong, hb⟩ h
      refine .inr (.inr ⟨hlong, hbig, ?_⟩)
      unfold writeCntrl rwPlx9030lcr leCpu
      rw [if_pos hmap, hbig]
      show (swab32 chipSelect).getLsbD 3 = false
      decide
    · exact .inr (.inl hlong)
  · exact .inl (by rw [writeCntrl_plxRemap]; exact Bool.eq_false_iff.mpr hmap)

theorem writeEpromWord_fails (hlong : e.longBytes = 4 ∨ e.longBytes = 8) (h : ¬ Works e s)
    (word : BitVec 16) : (writeEpromWord e word s).1 ≠ plxOk := by
  unfold writeEpromWord
  dsimp only
  have hsame : ¬ Works e (writeCntrl e chipUnselect e.longBytes (clockBits e word 16 0x8000 s)) := by
    intro hworks
    have hmap := hworks.remap
    rw [writeCntrl_plxRemap, clockBits_plxRemap] at hmap
    exact h ⟨hmap, hworks.long, hworks.little⟩
  rw [if_pos ((silent_select hlong hsame).poll (by decide) 6000)]
  exact (show -plxTimeout ≠ plxOk by decide)

theorem works_of_writeEeprom (hlong : e.longBytes = 4 ∨ e.longBytes = 8) {reg : ℤ} {eData : Eprom}
    (hok : (writeEeprom e reg eData s).1 ≠ 0) : Works e s := by
  by_contra h
  have hfails (cmd adr word : BitVec 16) :
      (writeEpromWord e word (sendEpromCmd e cmd adr (plx9030Open e s))).1 ≠ plxOk := by
    refine writeEpromWord_fails hlong (fun hworks => h ⟨?_, hworks.long, hworks.little⟩) word
    have hmap := hworks.remap
    rwa [sendEpromCmd_plxRemap, plx9030Open_plxRemap] at hmap
  apply hok
  unfold writeEeprom
  dsimp only
  split
  · rw [epromRegs, writeAll, if_pos (hfails _ _ _)]
  · split
    · exact if_neg (hfails _ _ _)
    · rfl

/-! ### Writing and reading -/

/-- The registers of a request. -/
def Covers (reg : ℤ) (i : ℕ) : Prop := reg = 0 ∧ i < epromRegs ∨ reg = i + 1

theorem writeEeprom_eq (hlong : e.longBytes = 4 ∨ e.longBytes = 8) (hopen : s.plxFlashOpen = 0)
    (hquiet : s.eeprom.core.phase.Quiet) {reg : ℤ} {eData : Eprom}
    (hok : (writeEeprom e reg eData s).1 ≠ 0) :
    (reg = 0 ∧ (writeEeprom e reg eData s).1 = epromRegs ∨
        (1 ≤ reg ∧ reg ≤ epromRegs) ∧ (writeEeprom e reg eData s).1 = 1) ∧
      ∃ mem', Is e (writeEeprom e reg eData s).2 0 ⟨mem', false, .standby⟩ false false ∧
        ∀ i, (Covers reg i → mem' i = eData i) ∧ (¬ Covers reg i → mem' i = s.eeprom.core.mem i) := by
  have hstart : Is e s 0 s.eeprom.core s.eeprom.cs s.eeprom.clk :=
    ⟨works_of_writeEeprom hlong hok, hopen, rfl⟩
  have hopened := hstart.plx9030Open hquiet
  unfold writeEeprom at hok ⊢
  dsimp only at hok ⊢
  by_cases hall : reg = 0
  · rw [if_pos hall] at hok ⊢
    obtain ⟨hcount, core', cs', clk', his, hq, hmem⟩ :=
      hopened.writeAll trivial rfl (show 0 + epromRegs ≤ eepromWords by decide) hok
    rw [Nat.zero_add] at hcount
    refine ⟨.inl ⟨hall, hcount⟩, core'.mem, his.plx9030Close hq, fun i => ⟨fun hi => ?_, fun hi => ?_⟩⟩
    · have hlt : i < epromRegs := by
        rcases hi with hi | hi
        · exact hi.2
        · omega
      rw [hmem i, if_pos (by omega)]
    · have hge : ¬ i < epromRegs := fun hlt => hi (.inl ⟨hall, hlt⟩)
      rw [hmem i, if_neg (by omega)]
  · rw [if_neg hall] at hok ⊢
    by_cases hin : 1 ≤ reg ∧ reg ≤ epromRegs
    · rw [if_pos hin] at hok ⊢
      dsimp only at hok ⊢
      obtain ⟨a, ha⟩ : ∃ a : ℕ, reg = a + 1 := ⟨(reg - 1).toNat, by omega⟩
      have hlt : a < eepromWords := by
        have hregs : (epromRegs : ℤ) = 68 := rfl
        show a < 128
        omega
      have haddr : BitVec.ofInt 16 (reg - 1) = BitVec.ofNat 16 a := by
        rw [ha, Int.add_sub_cancel]
        exact BitVec.ofInt_natCast 16 a
      rw [haddr, show (reg - 1).toNat = a by omega] at hok ⊢
      have hsend := hopened.sendWrite trivial rfl hlt
      have hword : (writeEpromWord e (eData a)
          (sendEpromCmd e epCmdWRITE (BitVec.ofNat 16 a) (plx9030Open e s))).1 = plxOk := by
        by_contra hne
        exact hok (if_neg hne)
      have hwrote := (hsend.writeEpromWord hword).plx9030Close trivial
      refine ⟨.inr ⟨hin, if_pos hword⟩, _, hwrote, fun i => ⟨fun hi => ?_, fun hi => ?_⟩⟩
      · obtain rfl : i = a := by
          rcases hi with hi | hi
          · exact absurd hi.1 hall
          · omega
        exact update_self ..
      · exact update_of_ne (fun h => hi (.inr (by rw [ha, h]))) ..
    · rw [if_neg hin] at hok
      exact absurd rfl hok

theorem readEeprom_eq (h : Is e s flash core cs clk) (hq : core.phase.Quiet) {reg : ℤ}
    (hreg : reg = 0 ∨ 1 ≤ reg ∧ reg ≤ epromRegs) (eData : Eprom) :
    (readEeprom e reg eData s).1 = (if reg = 0 then epromRegs else 1) ∧
      ∀ i, (Covers reg i → (readEeprom e reg eData s).2.1 i = core.mem i) ∧
        (¬ Covers reg i → (readEeprom e reg eData s).2.1 i = eData i) := by
  unfold readEeprom
  by_cases hall : reg = 0
  · rw [if_pos hall, if_pos hall]
    have hread := h.readAll hq (show 0 + epromRegs ≤ eepromWords by decide) eData
    refine ⟨rfl, fun i => ⟨fun hi => ?_, fun hi => ?_⟩⟩
    · have hlt : i < epromRegs := by
        rcases hi with hi | hi
        · exact hi.2
        · omega
      rw [hread i, if_pos (by omega)]
    · have hge : ¬ i < epromRegs := fun hlt => hi (.inl ⟨hall, hlt⟩)
      rw [hread i, if_neg (by omega)]
  · have hin := hreg.resolve_left hall
    rw [if_neg hall, if_neg hall, if_pos hin]
    obtain ⟨a, ha⟩ : ∃ a : ℕ, reg = a + 1 := ⟨(reg - 1).toNat, by omega⟩
    have hlt : a < eepromWords := by
      have hregs : (epromRegs : ℤ) = 68 := rfl
      show a < 128
      omega
    have haddr : BitVec.ofInt 16 (reg - 1) = BitVec.ofNat 16 a := by
      rw [ha, Int.add_sub_cancel]
      exact BitVec.ofInt_natCast 16 a
    rw [haddr, show (reg - 1).toNat = a by omega]
    obtain ⟨hword, -⟩ := (h.sendRead hq hlt).readEpromWord hlt
    refine ⟨rfl, fun i => ⟨fun hi => ?_, fun hi => ?_⟩⟩
    · obtain rfl : i = a := by
        rcases hi with hi | hi
        · exact absurd hi.1 hall
        · omega
      exact (update_self ..).trans hword
    · exact update_of_ne (fun h => hi (.inr (by rw [ha, h]))) ..

/-- A `long` of four bytes, and programming cycles that are over at every fortieth access. -/
def slowWorld : World := ⟨4, false, fun n => n % 40 = 0, fun _ => false⟩

/-- A card with an erased EEPROM. -/
def erasedCard : Plx := ⟨true, 0, 0, ⟨⟨fun _ => 0xFFFF, false, .standby⟩, false, false⟩, 0⟩

end KernelModules.Utils.Plx9030
