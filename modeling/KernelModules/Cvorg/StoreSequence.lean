import Mathlib.Tactic
import KernelModules.Lib.LinkedChain
import KernelModules.Lib.Packing
import KernelModules.Lib.Word

/-!
# Storing a sequence in a CVORG channel

A sequence is a list of waveforms that a channel plays one after the other.  `cvorg_storeseq` puts
the points of all waveforms in the SRAM of the channel, one waveform behind the other, and
describes each waveform by a block of four registers: where the points start, how many they are,
how often they are played, and the next block with the gain.

* `Channel` are the registers of a channel and its SRAM, with the pointer that moves on by itself;
* `normalizeWv`, `sram`, `wvMarkPrev`, `wvMarkLast`, `wvStore` are the steps of the loop body
  `storeWave`, and `storeseq` is the call with its checks;
* `storeWaves_block` says what a run leaves in each block, `storeWaves_sram_of_lt` which words of
  the SRAM it leaves alone;
* `storeseq_stores` puts these together for every accepted sequence.  A sequence of one waveform
  carries the number of cycles in the recurrence of the waveform, and an odd number of points can
  lose the last one to the next waveform (`not_storesSequence`).
-/

namespace KernelModules.Cvorg

open Function KernelModules.Lib KernelModules.Lib.Word

abbrev U32 := BitVec 32

abbrev U16 := BitVec 16

/-! ### Waveforms -/

/-- `struct cvorg_wv`; the memory at `form` holds `size / 2` points. -/
structure Wave where
  recurr : U32
  size : U32
  dynamicGain : U32
  gainVal : ℤ
  form : List U16
  form_length : form.length = size.toNat / 2

/-- `struct cvorg_seq`; `n_waves` is the length of the list. -/
structure Seq where
  nr : U32
  waves : List Wave

/-- The loop of `normalize_wv` for one point. -/
def normalizePoint (x : U16) : U16 :=
  (if x &&& 0x3 ≠ 0 ∧ x ≠ 0xffff then x + 1 else x) &&& ~~~0x3

def normalizeWv (wv : Wave) : Wave :=
  { wv with
    form := wv.form.map normalizePoint
    form_length := by rw [List.length_map]; exact wv.form_length }

/-! ### Gains -/

/-- `cvorg_gains`. -/
def gains : List ℤ := [-22, -16, -10, -4, 2, 8, 14, 20]

/-- `cvorg_absdiff`. -/
def absdiff (s1 s2 : ℤ) : ℕ := (if s2 < s1 then s1 - s2 else s2 - s1).toNat

/-- `cvorg_nearest`: the first of the nearest entries. -/
def nearest (array : List ℤ) (val : ℤ) : ℤ :=
  (array.foldl (fun best x => if absdiff x val < best.1 then (absdiff x val, x) else best)
    (0xffffffff, array.headD 0)).2

/-- `cvorg_gain_approx`. -/
def gainApprox (gain : ℤ) : ℤ :=
  if gain < -22 then -22 else if 20 < gain then 20 else nearest gains gain

/-- `cvorg_gain_to_hw`. -/
def gainToHw : ℤ → U32
  | -22 => 0
  | -16 => 1
  | -10 => 2
  | -4 => 3
  | 2 => 4
  | 8 => 5
  | 14 => 6
  | _ => 7

/-! ### The channel -/

/-- The registers of a channel by their offsets.  `CVORG_SRAMADDR` takes a byte address and moves
on with every access of `CVORG_SRAMDATA`; the SRAM consists of 32-bit words, so `ptr` is kept in
words. -/
structure Channel where
  regs : ℕ → U32
  ptr : ℕ
  sram : ℕ → U32

namespace Channel

/-- `cvorg_wchan`, for the registers that only keep what is written. -/
def wchan (c : Channel) (offset : ℕ) (value : U32) : Channel :=
  { c with regs := update c.regs offset value }

/-- `cvorg_ochan`. -/
def ochan (c : Channel) (offset : ℕ) (value : U32) : Channel :=
  c.wchan offset (c.regs offset ||| value)

/-- `cvorg_achan`. -/
def achan (c : Channel) (offset : ℕ) (value : U32) : Channel :=
  c.wchan offset (c.regs offset &&& value)

/-- `cvorg_uchan`. -/
def uchan (c : Channel) (offset : ℕ) (value mask : U32) : Channel :=
  (c.achan offset (~~~mask)).ochan offset value

/-- `cvorg_wchan(chan, CVORG_SRAMADDR, dest)`. -/
def wsramaddr (c : Channel) (dest : U32) : Channel := { c with ptr := dest.toNat / 4 }

/-- `cvorg_wchan_noswap(chan, CVORG_SRAMDATA, value)`. -/
def wsramdata (c : Channel) (value : U32) : Channel :=
  { c with sram := update c.sram c.ptr value, ptr := c.ptr + 1 }

@[simp]
theorem wchan_regs (c : Channel) (offset : ℕ) (value : U32) :
    (c.wchan offset value).regs = update c.regs offset value := rfl

@[simp]
theorem wchan_sram (c : Channel) (offset : ℕ) (value : U32) :
    (c.wchan offset value).sram = c.sram := rfl

@[simp]
theorem uchan_regs (c : Channel) (offset : ℕ) (value mask : U32) :
    (c.uchan offset value mask).regs =
      update c.regs offset (c.regs offset &&& ~~~mask ||| value) := by
  simp [uchan, achan, ochan]

@[simp]
theorem uchan_sram (c : Channel) (offset : ℕ) (value mask : U32) :
    (c.uchan offset value mask).sram = c.sram := rfl

end Channel

/-! ### Points in SRAM -/

/-- `cvorg_cpu_to_hw`. -/
def cpuToHw (o : ByteOrder) (d0 d1 : U16) : U32 :=
  (cpuToBe16 o d0).setWidth 32 <<< 16 ||| (cpuToBe16 o d1).setWidth 32

/-- `cvorg_cpu_to_hw_single`. -/
def cpuToHwSingle (o : ByteOrder) (d0 : U16) : U32 := (cpuToBe16 o d0).setWidth 32 <<< 16

/-- `data[0]` of `cvorg_hw_to_cpu`. -/
def hwToCpuFirst (o : ByteOrder) (hwval : U32) : U16 := cpuToBe16 o ((hwval >>> 16).setWidth 16)

/-- `data[1]` of `cvorg_hw_to_cpu`. -/
def hwToCpuSecond (o : ByteOrder) (hwval : U32) : U16 :=
  cpuToBe16 o ((hwval &&& 0xffff).setWidth 16)

/-- The writes of `__sram`: two points each, and one for the last point of an odd number. -/
def sramData (o : ByteOrder) : List U16 → Channel → Channel
  | [], c => c
  | [x], c => c.wsramdata (cpuToHwSingle o x)
  | x :: y :: l, c => sramData o l (c.wsramdata (cpuToHw o x y))

/-- `__sram`. -/
def sram (o : ByteOrder) (c : Channel) (wv : Wave) (dest : U32) : Channel :=
  sramData o wv.form (c.wsramaddr dest)

theorem hwToCpuFirst_cpuToHw (o : ByteOrder) (x y : U16) :
    hwToCpuFirst o (cpuToHw o x y) = x := by
  have h : ∀ a b : U16, ((a.setWidth 32 <<< 16 ||| b.setWidth 32) >>> 16).setWidth 16 = a := by
    intro a b
    apply BitVec.eq_of_getLsbD_eq
    intro i hi
    simp [hi, show i < 32 by omega, show 16 + i < 32 by omega]
  rw [hwToCpuFirst, cpuToHw, h, cpuToBe16_cpuToBe16]

theorem hwToCpuSecond_cpuToHw (o : ByteOrder) (x y : U16) :
    hwToCpuSecond o (cpuToHw o x y) = y := by
  have h : ∀ a b : U16,
      ((a.setWidth 32 <<< 16 ||| b.setWidth 32) &&& 0xffff).setWidth 16 = b := by
    intro a b
    apply BitVec.eq_of_getLsbD_eq
    intro i hi
    have hmask : (0xffff#16).getLsbD i = true := by
      rw [show (0xffff#16) = BitVec.ofNat 16 (2 ^ 16 - 1) from rfl, Word.getLsbD_low 16 i hi]
      simp [hi]
    simpa [hi] using fun _ => hmask
  rw [hwToCpuSecond, cpuToHw, h, cpuToBe16_cpuToBe16]

theorem hwToCpuFirst_cpuToHwSingle (o : ByteOrder) (x : U16) :
    hwToCpuFirst o (cpuToHwSingle o x) = x := by
  have h : ∀ a : U16, ((a.setWidth 32 <<< 16) >>> 16).setWidth 16 = a := by
    intro a
    apply BitVec.eq_of_getLsbD_eq
    intro i hi
    simp [hi, show i < 32 by omega, show 16 + i < 32 by omega]
  rw [hwToCpuFirst, cpuToHwSingle, h, cpuToBe16_cpuToBe16]

theorem sramData_sram (o : ByteOrder) (l : List U16) (c : Channel) :
    (sramData o l c).sram =
      Packing.burst c.sram c.ptr (Packing.pack (cpuToHw o) (cpuToHwSingle o) l) := by
  induction l using List.twoStepInduction generalizing c with
  | nil => rfl
  | singleton x => rfl
  | cons_cons x y l ih _ =>
    rw [sramData, ih]
    rfl

theorem sramData_regs (o : ByteOrder) (l : List U16) (c : Channel) :
    (sramData o l c).regs = c.regs := by
  induction l using List.twoStepInduction generalizing c with
  | nil => rfl
  | singleton x => rfl
  | cons_cons x y l ih _ =>
    rw [sramData, ih]
    rfl

/-! ### Blocks -/

/-- `block_offset`. -/
def blockOffset (blocknr : ℕ) : ℕ := 0x60 + 0x10 * blocknr

/-- `prev_block_offset`. -/
def prevBlockOffset (blocknr : ℕ) : ℕ := 0x60 + 0x10 * (blocknr - 1)

/-- `CVORG_WFSTART`, 21 bits of a register. -/
def WFSTART : ℕ := 0x00

/-- `CVORG_WFLEN`, 20 bits of a register. -/
def WFLEN : ℕ := 0x04

def WFRECURR : ℕ := 0x08

def WFNEXTBLK : ℕ := 0x0c

def WFSTART_MASK : U32 := 0x001fffff

def WFLEN_MASK : U32 := 0x000fffff

def WFNEXTBLK_NEXT_MASK : U32 := 0x1f

def WFNEXTBLK_LAST : U32 := 31

/-- `CVORG_WFNEXTBLK_CONF_GAIN`. -/
def CONF_GAIN : U32 := 0x100

def GAIN_MASK : U32 := 0x7 <<< 9

def SEQNR : ℕ := 0x58

/-- `cvorg_wv_mark_prev`. -/
def wvMarkPrev (c : Channel) (prevblock currblockIndex : ℕ) : Channel :=
  c.uchan (prevblock + WFNEXTBLK) (BitVec.ofNat 32 currblockIndex) WFNEXTBLK_NEXT_MASK

/-- `cvorg_wv_mark_last`. -/
def wvMarkLast (c : Channel) (block : ℕ) : Channel :=
  c.uchan (block + WFNEXTBLK) WFNEXTBLK_LAST WFNEXTBLK_NEXT_MASK

/-- The waveform after `cvorg_wv_gain_store`, which keeps the gain that the module has. -/
def approxGain (wv : Wave) : Wave :=
  if wv.dynamicGain = 0 then wv else { wv with gainVal := gainApprox wv.gainVal }

/-- `cvorg_wv_gain_store`, as far as the module is concerned. -/
def wvGainStore (c : Channel) (block : ℕ) (wv : Wave) : Channel :=
  let offset := block + WFNEXTBLK
  let c := c.achan offset (~~~CONF_GAIN)
  if wv.dynamicGain = 0 then c
  else
    let val := gainToHw (gainApprox wv.gainVal)
    let c := c.ochan offset CONF_GAIN
    c.uchan offset (val <<< 9) GAIN_MASK

/-- `cvorg_wv_store`. -/
def wvStore (c : Channel) (block : ℕ) (wv : Wave) : Channel :=
  let c := c.wchan (block + WFLEN) (wv.size / 2)
  let c := c.wchan (block + WFRECURR) wv.recurr
  wvGainStore c block wv

/-! ### The call -/

/-- The body of the loop of `__cvorg_storeseq`, for the normalised waveform `i` of `n`. -/
def storeWave (o : ByteOrder) (n i : ℕ) (ramaddr : U32) (wv : Wave) (c : Channel) : Channel :=
  let c := sram o c wv ramaddr
  let currblock := blockOffset i
  let c := if 0 < i then wvMarkPrev c (prevBlockOffset i) i else c
  let c := c.wchan (currblock + WFSTART) ramaddr
  let c := wvStore c currblock wv
  if i = n - 1 then wvMarkLast c currblock else c

/-- The loop, from waveform `i` on.  The waveforms are changed in place. -/
def storeWaves (o : ByteOrder) (n : ℕ) : ℕ → U32 → List Wave → Channel → Channel × List Wave
  | _, _, [], c => (c, [])
  | i, ramaddr, wv :: wvs, c =>
    let wv := normalizeWv wv
    let r := storeWaves o n (i + 1) (ramaddr + wv.size) wvs (storeWave o n i ramaddr wv c)
    (r.1, approxGain wv :: r.2)

/-- A single waveform is looped by its own recurrence. -/
def foldCycles (seq : Seq) : Seq :=
  if seq.waves.length = 1 then
    ⟨1, seq.waves.map fun wv => { wv with recurr := wv.recurr * seq.nr }⟩
  else seq

/-- `__cvorg_storeseq`. -/
def storeseqBody (o : ByteOrder) (c : Channel) (seq : Seq) : Channel × Seq :=
  let seq := foldCycles seq
  let c := c.wchan SEQNR seq.nr
  let r := storeWaves o seq.waves.length 0 0 seq.waves c
  (r.1, ⟨seq.nr, r.2⟩)

/-- The errors of `cvorg_storeseq`. -/
inductive Errno
  | EAGAIN | ENOMEM | EINVAL
  deriving DecidableEq, Repr

/-- `seq_size`, in a 64-bit `ssize_t`. -/
def seqSize (waves : List Wave) : BitVec 64 :=
  waves.foldl (fun size wv => size + wv.size.setWidth 64) 0

/-- `CVORG_SRAM_SIZE`, which is what `avail_sram` returns. -/
def SRAM_SIZE : BitVec 64 := 0x200000

def MAX_SEQUENCES : ℕ := 26

/-- `__cvorg_sram_busy`: ten readings of the status register, all with `CVORG_STATUS_SRAM_BUSY`. -/
def sramBusy (status : ℕ → U32) : Bool :=
  (List.range 10).all fun i => status i &&& 0x8 != 0

/-- `cvorg_storeseq`; `status` are the readings of the status register. -/
def storeseq (o : ByteOrder) (status : ℕ → U32) (c : Channel) (seq : Seq) :
    Except Errno (Channel × Seq) :=
  if (SRAM_SIZE).slt (seqSize seq.waves) then .error .ENOMEM
  else if seq.waves.length = 0 ∨ MAX_SEQUENCES < seq.waves.length then .error .EINVAL
  else if sramBusy status then .error .EAGAIN
  else .ok (storeseqBody o c seq)

/-! ### What a stored sequence is -/

namespace Channel

/-- The word with the next block and the gain of a block. -/
def nextWord (c : Channel) (blocknr : ℕ) : U32 := c.regs (blockOffset blocknr + WFNEXTBLK)

/-- The number of points of a block. -/
def blockLen (c : Channel) (blocknr : ℕ) : ℕ :=
  (c.regs (blockOffset blocknr + WFLEN) &&& WFLEN_MASK).toNat

/-- The byte address of the points of a block. -/
def blockStart (c : Channel) (blocknr : ℕ) : ℕ :=
  (c.regs (blockOffset blocknr + WFSTART) &&& WFSTART_MASK).toNat

def blockRecurr (c : Channel) (blocknr : ℕ) : U32 := c.regs (blockOffset blocknr + WFRECURR)

/-- The gain of a block, if it has one of its own. -/
def blockGain (c : Channel) (blocknr : ℕ) : Option U32 :=
  if c.nextWord blocknr &&& CONF_GAIN = 0 then none
  else some ((c.nextWord blocknr &&& GAIN_MASK) >>> 9)

/-- The points of a block, read through the data port from its start. -/
def blockPoints (o : ByteOrder) (c : Channel) (blocknr : ℕ) : List U16 :=
  Packing.unpack (hwToCpuFirst o) (hwToCpuSecond o) c.sram (c.blockLen blocknr)
    (c.blockStart blocknr / 4)

end Channel

/-- The number of the next block. -/
def nextBlock (word : U32) : ℕ := (word &&& WFNEXTBLK_NEXT_MASK).toNat

/-- The mark of the last block of a sequence. -/
def isLastBlock (word : U32) : Bool := word &&& WFNEXTBLK_NEXT_MASK == WFNEXTBLK_LAST

/-- The gain that the module has for a waveform. -/
def waveGain (wv : Wave) : Option U32 :=
  if wv.dynamicGain = 0 then none else some (gainToHw (gainApprox wv.gainVal))

/-- The chain of blocks from block 0 is `0 .. n - 1` and ends there. -/
def ChainOf (c : Channel) (n : ℕ) : Prop :=
  ∀ m, n ≤ m → walk nextBlock isLastBlock c.nextWord m 0 = List.range n

/-- The channel plays the waveforms of the sequence one after the other, as they are. -/
def StoresSequence (o : ByteOrder) (c : Channel) (seq : Seq) : Prop :=
  ChainOf c seq.waves.length ∧
    ∀ i wv, seq.waves[i]? = some wv →
      c.blockRecurr i = wv.recurr ∧ c.blockLen i = wv.form.length ∧ c.blockGain i = waveGain wv ∧
        c.blockPoints o i = wv.form.map normalizePoint

/-! ### One waveform -/

/-- The word of a block after its gain was stored. -/
def gainWord (wv : Wave) (x : U32) : U32 :=
  if wv.dynamicGain = 0 then x &&& ~~~CONF_GAIN
  else (x &&& ~~~CONF_GAIN ||| CONF_GAIN) &&& ~~~GAIN_MASK |||
    gainToHw (gainApprox wv.gainVal) <<< 9

/-- The word of a block after the next block was entered. -/
def markWord (next x : U32) : U32 := x &&& ~~~WFNEXTBLK_NEXT_MASK ||| next

theorem wvGainStore_regs (c : Channel) (block : ℕ) (wv : Wave) :
    (wvGainStore c block wv).regs =
      update c.regs (block + WFNEXTBLK) (gainWord wv (c.regs (block + WFNEXTBLK))) := by
  unfold wvGainStore gainWord
  split
  · rfl
  · simp [Channel.achan, Channel.ochan]

theorem wvGainStore_sram (c : Channel) (block : ℕ) (wv : Wave) :
    (wvGainStore c block wv).sram = c.sram := by
  unfold wvGainStore
  split <;> rfl

section Step

variable (o : ByteOrder) (n i : ℕ) (ramaddr : U32) (wv : Wave) (c : Channel)

theorem storeWave_sram :
    (storeWave o n i ramaddr wv c).sram = Packing.burst c.sram (ramaddr.toNat / 4)
      (Packing.pack (cpuToHw o) (cpuToHwSingle o) wv.form) := by
  have hsram : (sram o c wv ramaddr).sram = Packing.burst c.sram (ramaddr.toNat / 4)
      (Packing.pack (cpuToHw o) (cpuToHwSingle o) wv.form) := sramData_sram o wv.form _
  rw [← hsram]
  have hprev : (if 0 < i then wvMarkPrev (sram o c wv ramaddr) (prevBlockOffset i) i
      else sram o c wv ramaddr).sram = (sram o c wv ramaddr).sram := by
    split <;> rfl
  unfold storeWave
  dsimp only
  split
  · rw [← hprev]
    exact wvGainStore_sram _ _ _
  · rw [← hprev]
    exact wvGainStore_sram _ _ _

theorem markPrev_regs :
    (if 0 < i then wvMarkPrev (sram o c wv ramaddr) (prevBlockOffset i) i
      else sram o c wv ramaddr).regs =
      if 0 < i then update c.regs (blockOffset (i - 1) + WFNEXTBLK)
        (markWord (BitVec.ofNat 32 i) (c.nextWord (i - 1))) else c.regs := by
  have hregs : (sram o c wv ramaddr).regs = c.regs := sramData_regs o wv.form _
  split
  · rw [wvMarkPrev, Channel.uchan_regs, hregs]
    rfl
  · exact hregs

theorem storeWave_regs :
    (storeWave o n i ramaddr wv c).regs =
      let regs := if 0 < i then update c.regs (blockOffset (i - 1) + WFNEXTBLK)
        (markWord (BitVec.ofNat 32 i) (c.nextWord (i - 1))) else c.regs
      let regs := update regs (blockOffset i + WFSTART) ramaddr
      let regs := update regs (blockOffset i + WFLEN) (wv.size / 2)
      let regs := update regs (blockOffset i + WFRECURR) wv.recurr
      let word := gainWord wv (c.nextWord i)
      update regs (blockOffset i + WFNEXTBLK)
        (if i = n - 1 then markWord WFNEXTBLK_LAST word else word) := by
  have hword : ∀ a b d : U32,
      update (update (update (if 0 < i then update c.regs (blockOffset (i - 1) + WFNEXTBLK)
        (markWord (BitVec.ofNat 32 i) (c.nextWord (i - 1))) else c.regs)
        (blockOffset i + WFSTART) a) (blockOffset i + WFLEN) b) (blockOffset i + WFRECURR) d
        (blockOffset i + WFNEXTBLK) = c.nextWord i := by
    intro a b d
    rw [update_of_ne (by simp [WFNEXTBLK, WFRECURR]), update_of_ne (by simp [WFNEXTBLK, WFLEN]),
      update_of_ne (by simp [WFNEXTBLK, WFSTART])]
    split
    · rw [update_of_ne (by unfold blockOffset; omega)]
      rfl
    · rfl
  unfold storeWave wvStore
  dsimp only
  split
  · rw [wvMarkLast, Channel.uchan_regs, wvGainStore_regs, Channel.wchan_regs, Channel.wchan_regs,
      Channel.wchan_regs, markPrev_regs, update_idem, update_self, hword]
    rfl
  · rw [wvGainStore_regs, Channel.wchan_regs, Channel.wchan_regs, Channel.wchan_regs,
      markPrev_regs, hword]

/-- The three registers of a block that are written as a whole. -/
def Channel.descriptor (c : Channel) (blocknr : ℕ) : U32 × U32 × U32 :=
  (c.regs (blockOffset blocknr + WFSTART), c.regs (blockOffset blocknr + WFLEN),
    c.regs (blockOffset blocknr + WFRECURR))

theorem storeWave_descriptor (j : ℕ) :
    (storeWave o n i ramaddr wv c).descriptor j =
      if j = i then (ramaddr, wv.size / 2, wv.recurr) else c.descriptor j := by
  unfold Channel.descriptor
  rw [storeWave_regs]
  by_cases hj : j = i
  · subst hj
    simp [WFNEXTBLK, WFRECURR, WFLEN, WFSTART]
  · have hprev : ∀ f, f < 0xc → (if 0 < i then update c.regs (blockOffset (i - 1) + WFNEXTBLK)
        (markWord (BitVec.ofNat 32 i) (c.nextWord (i - 1))) else c.regs) (blockOffset j + f) =
        c.regs (blockOffset j + f) := by
      intro f hf
      split
      · exact update_of_ne (by unfold blockOffset WFNEXTBLK; omega) _ _
      · rfl
    have hne : ∀ f g, f < 0x10 → g < 0x10 → blockOffset j + f ≠ blockOffset i + g := by
      intro f g hf hg
      unfold blockOffset
      omega
    have hother : ∀ f, f < 0xc → (storeWave o n i ramaddr wv c).regs (blockOffset j + f) =
        c.regs (blockOffset j + f) := by
      intro f hf
      rw [storeWave_regs]
      dsimp only
      rw [update_of_ne (hne f _ (by omega) (by decide)), update_of_ne (hne f _ (by omega)
        (by decide)), update_of_ne (hne f _ (by omega) (by decide)),
        update_of_ne (hne f _ (by omega) (by decide)), hprev f hf]
    rw [if_neg hj, ← storeWave_regs o n i ramaddr wv c, hother _ (by decide),
      hother _ (by decide), hother _ (by decide)]

theorem storeWave_nextWord (j : ℕ) :
    (storeWave o n i ramaddr wv c).nextWord j =
      if j = i then
        if i = n - 1 then markWord WFNEXTBLK_LAST (gainWord wv (c.nextWord i))
        else gainWord wv (c.nextWord i)
      else if j + 1 = i then markWord (BitVec.ofNat 32 i) (c.nextWord j)
      else c.nextWord j := by
  unfold Channel.nextWord
  rw [storeWave_regs]
  dsimp only
  by_cases hj : j = i
  · subst hj
    rw [update_self, if_pos rfl]
    rfl
  · have hne : ∀ g, g < 0x10 → blockOffset j + WFNEXTBLK ≠ blockOffset i + g := by
      intro g hg
      unfold blockOffset WFNEXTBLK
      omega
    rw [if_neg hj, update_of_ne (hne _ (by decide)), update_of_ne (hne _ (by decide)),
      update_of_ne (hne _ (by decide)), update_of_ne (hne _ (by decide))]
    by_cases hprev : j + 1 = i
    · subst hprev
      rw [if_pos (by omega), if_pos rfl, Nat.add_sub_cancel, update_self]
      rfl
    · rw [if_neg hprev]
      split
      · exact update_of_ne (by unfold blockOffset; omega) _ _
      · rfl

end Step

/-! ### The run -/

section Run

variable {o : ByteOrder} {n i j : ℕ} {ramaddr : U32} {wvs : List Wave} {c : Channel}

theorem storeWaves_descriptor_of_lt (h : j < i) :
    (storeWaves o n i ramaddr wvs c).1.descriptor j = c.descriptor j := by
  induction wvs generalizing i ramaddr c with
  | nil => rfl
  | cons wv wvs ih =>
    rw [storeWaves]
    dsimp only
    rw [ih (by omega), storeWave_descriptor, if_neg (by omega)]

theorem storeWaves_nextWord_of_lt (h : j + 1 < i) :
    (storeWaves o n i ramaddr wvs c).1.nextWord j = c.nextWord j := by
  induction wvs generalizing i ramaddr c with
  | nil => rfl
  | cons wv wvs ih =>
    rw [storeWaves]
    dsimp only
    rw [ih (by omega), storeWave_nextWord, if_neg (by omega), if_neg (by omega)]

theorem storeWaves_nextWord_prev (hne : wvs ≠ []) :
    (storeWaves o n (i + 1) ramaddr wvs c).1.nextWord i =
      markWord (BitVec.ofNat 32 (i + 1)) (c.nextWord i) := by
  obtain ⟨wv, wvs, rfl⟩ := List.exists_cons_of_ne_nil hne
  rw [storeWaves]
  dsimp only
  rw [storeWaves_nextWord_of_lt (by omega), storeWave_nextWord, if_neg (by omega), if_pos rfl]

/-- Where waveform `k` starts, in bytes. -/
def startAddr (ramaddr : ℕ) (wvs : List Wave) (k : ℕ) : ℕ :=
  ramaddr + ((wvs.take k).map fun wv => wv.size.toNat).sum

/-- The bytes of all waveforms. -/
def totalSize (wvs : List Wave) : ℕ := (wvs.map fun wv => wv.size.toNat).sum

theorem startAddr_cons_succ (ramaddr : ℕ) (wv : Wave) (wvs : List Wave) (k : ℕ) :
    startAddr ramaddr (wv :: wvs) (k + 1) = startAddr (ramaddr + wv.size.toNat) wvs k := by
  simp [startAddr, Nat.add_assoc]

theorem toNat_add_size {wv : Wave} (hfit : ramaddr.toNat + totalSize (wv :: wvs) < 2 ^ 32) :
    (ramaddr + wv.size).toNat = ramaddr.toNat + wv.size.toNat := by
  rw [totalSize, List.map_cons, List.sum_cons] at hfit
  rw [BitVec.toNat_add]
  exact Nat.mod_eq_of_lt (by omega)

theorem fit_tail {wv : Wave} (hfit : ramaddr.toNat + totalSize (wv :: wvs) < 2 ^ 32) :
    (ramaddr + wv.size).toNat + totalSize wvs < 2 ^ 32 := by
  rw [toNat_add_size hfit]
  rw [totalSize, List.map_cons, List.sum_cons] at hfit
  rw [totalSize]
  omega

theorem storeWaves_block (hn : i + wvs.length = n)
    (hfit : ramaddr.toNat + totalSize wvs < 2 ^ 32) {k : ℕ} {wv : Wave}
    (hk : wvs[k]? = some wv) :
    (∃ start : U32, start.toNat = startAddr ramaddr.toNat wvs k ∧
      (storeWaves o n i ramaddr wvs c).1.descriptor (i + k) = (start, wv.size / 2, wv.recurr)) ∧
    ∃ x, (storeWaves o n i ramaddr wvs c).1.nextWord (i + k) =
      markWord (if i + k + 1 = n then WFNEXTBLK_LAST else BitVec.ofNat 32 (i + k + 1))
        (gainWord wv x) := by
  induction wvs generalizing i ramaddr c k with
  | nil => simp at hk
  | cons w wvs ih =>
    rw [List.length_cons] at hn
    rw [storeWaves]
    dsimp only
    cases k with
    | zero =>
      obtain rfl : w = wv := by simpa using hk
      simp only [Nat.add_zero]
      refine ⟨⟨ramaddr, by simp [startAddr], ?_⟩, c.nextWord i, ?_⟩
      · rw [storeWaves_descriptor_of_lt (by omega), storeWave_descriptor, if_pos rfl]
        rfl
      · -- the last round marks its own block, the others are linked by the next round
        by_cases hlast : wvs = []
        · subst hlast
          rw [storeWaves]
          dsimp only
          rw [storeWave_nextWord, if_pos rfl, if_pos (by simp at hn; omega),
            if_pos (by simpa using hn)]
          rfl
        · have hlen : 0 < wvs.length := List.length_pos_iff.mpr hlast
          rw [storeWaves_nextWord_prev hlast, storeWave_nextWord, if_pos rfl,
            if_neg (by omega), if_neg (by omega)]
          rfl
    | succ k =>
      have hk' : wvs[k]? = some wv := by simpa using hk
      have hrest := ih (i := i + 1) (c := storeWave o n i ramaddr (normalizeWv w) c) (by omega)
        (fit_tail hfit) hk'
      rw [toNat_add_size hfit, ← startAddr_cons_succ, show i + 1 + k = i + (k + 1) by omega]
        at hrest
      exact hrest

theorem storeWaves_sram_of_lt {a : ℕ} (hfit : ramaddr.toNat + totalSize wvs < 2 ^ 32)
    (h : ∀ k wv, wvs[k]? = some wv → wv.form ≠ [] → a < startAddr ramaddr.toNat wvs k / 4) :
    (storeWaves o n i ramaddr wvs c).1.sram a = c.sram a := by
  induction wvs generalizing i ramaddr c with
  | nil => rfl
  | cons w wvs ih =>
    have hrest : ∀ k wv, wvs[k]? = some wv → wv.form ≠ [] →
        a < startAddr (ramaddr + w.size).toNat wvs k / 4 := by
      intro k wv hk hne
      rw [toNat_add_size hfit, ← startAddr_cons_succ]
      exact h (k + 1) wv (by simpa using hk) hne
    have hhead : (storeWave o n i ramaddr (normalizeWv w) c).sram a = c.sram a := by
      rw [storeWave_sram]
      by_cases hform : w.form = []
      · rw [show (normalizeWv w).form = [] by simp [normalizeWv, hform]]
        rfl
      · exact Packing.burst_of_lt (by simpa [startAddr] using h 0 w rfl hform)
    rw [storeWaves]
    exact (ih (fit_tail hfit) hrest).trans hhead

/-- No waveform after `k` has points that start in a word of waveform `k`. -/
def Kept (ramaddr : ℕ) (wvs : List Wave) (k : ℕ) : Prop :=
  ∀ wv, wvs[k]? = some wv → ∀ j wv', k < j → wvs[j]? = some wv' → wv'.form ≠ [] →
    startAddr ramaddr wvs k / 4 + (wv.form.length + 1) / 2 ≤ startAddr ramaddr wvs j / 4

theorem storeWaves_points (hfit : ramaddr.toNat + totalSize wvs < 2 ^ 32) {k : ℕ} {wv : Wave}
    (hk : wvs[k]? = some wv) (hkept : Kept ramaddr.toNat wvs k) :
    Packing.unpack (hwToCpuFirst o) (hwToCpuSecond o) (storeWaves o n i ramaddr wvs c).1.sram
      wv.form.length (startAddr ramaddr.toNat wvs k / 4) = wv.form.map normalizePoint := by
  induction wvs generalizing i ramaddr c k with
  | nil => simp at hk
  | cons w wvs ih =>
    rw [storeWaves]
    dsimp only
    cases k with
    | zero =>
      obtain rfl : w = wv := by simpa using hk
      have hstart : startAddr ramaddr.toNat (w :: wvs) 0 = ramaddr.toNat := by simp [startAddr]
      rw [hstart]
      -- the rounds to come write behind the words of this one
      have hlater : ∀ b, ramaddr.toNat / 4 ≤ b →
          b < ramaddr.toNat / 4 + (w.form.length + 1) / 2 →
          (storeWaves o n (i + 1) (ramaddr + (normalizeWv w).size) wvs
            (storeWave o n i ramaddr (normalizeWv w) c)).1.sram b =
          (storeWave o n i ramaddr (normalizeWv w) c).sram b := by
        intro b _ hb
        refine storeWaves_sram_of_lt (fit_tail hfit) fun j wv' hj hne => ?_
        have hle := hkept w rfl (j + 1) wv' (by omega) (by simpa using hj) hne
        rw [hstart, startAddr_cons_succ, ← toNat_add_size hfit] at hle
        exact lt_of_lt_of_le hb hle
      rw [Packing.unpack_congr hlater, storeWave_sram]
      have hlen : w.form.length = (w.form.map normalizePoint).length := by simp
      rw [hlen]
      exact Packing.unpack_burst_pack (hwToCpuFirst_cpuToHw o) (hwToCpuSecond_cpuToHw o)
        (hwToCpuFirst_cpuToHwSingle o) _ _ _
    | succ k =>
      have hk' : wvs[k]? = some wv := by simpa using hk
      have hkept' : Kept (ramaddr + w.size).toNat wvs k := by
        intro v hv j v' hj hv' hne
        rw [toNat_add_size hfit, ← startAddr_cons_succ, ← startAddr_cons_succ]
        exact hkept v (by simpa using hv) (j + 1) v' (by omega) (by simpa using hv') hne
      rw [startAddr_cons_succ, ← toNat_add_size hfit]
      exact ih (fit_tail hfit) hk' hkept'

end Run

/-! ### The fields of a block -/

theorem gainToHw_shift_and_mask (gain : ℤ) :
    gainToHw gain <<< 9 &&& GAIN_MASK = gainToHw gain <<< 9 := by
  unfold gainToHw
  split <;> decide

theorem gainToHw_shift_shift (gain : ℤ) : (gainToHw gain <<< 9) >>> 9 = gainToHw gain := by
  unfold gainToHw
  split <;> decide

theorem ofNat_and_nextMask {v : ℕ} (h : v < 32) :
    BitVec.ofNat 32 v &&& WFNEXTBLK_NEXT_MASK = BitVec.ofNat 32 v := by
  apply BitVec.eq_of_toNat_eq
  have hlow := Word.toNat_and_low (BitVec.ofNat 32 v) 5 (by omega)
  rw [show BitVec.ofNat 32 (2 ^ 5 - 1) = WFNEXTBLK_NEXT_MASK from rfl] at hlow
  rw [hlow, BitVec.toNat_ofNat]
  omega

theorem markWord_and_other {v x mask : U32} (hv : v &&& WFNEXTBLK_NEXT_MASK = v)
    (hmask : WFNEXTBLK_NEXT_MASK &&& mask = 0#32) : markWord v x &&& mask = x &&& mask :=
  Word.update_and_of_disjoint hmask hv

theorem blockGain_eq {c : Channel} {b : ℕ} {v x : U32} {wv : Wave}
    (hv : v &&& WFNEXTBLK_NEXT_MASK = v) (h : c.nextWord b = markWord v (gainWord wv x)) :
    c.blockGain b = waveGain wv := by
  rw [Channel.blockGain, h, markWord_and_other hv (by decide), markWord_and_other hv (by decide),
    waveGain, gainWord]
  by_cases hg : wv.dynamicGain = 0
  · have hclear : x &&& ~~~CONF_GAIN &&& CONF_GAIN = 0 := by
      rw [BitVec.and_assoc, show ~~~CONF_GAIN &&& CONF_GAIN = 0#32 by decide, BitVec.and_zero]
      rfl
    rw [if_pos hg, if_pos hclear, if_pos hg]
  · have hval := gainToHw_shift_and_mask (gainApprox wv.gainVal)
    have hset : ((x &&& ~~~CONF_GAIN ||| CONF_GAIN) &&& ~~~GAIN_MASK |||
        gainToHw (gainApprox wv.gainVal) <<< 9) &&& CONF_GAIN = CONF_GAIN := by
      rw [Word.update_and_of_disjoint (by decide) hval]
      exact Word.update_and_self (by decide)
    rw [if_neg hg, if_neg hg, hset, if_neg (by decide), Word.update_and_self hval,
      gainToHw_shift_shift]

theorem nextBlock_markWord {v : ℕ} (h : v < 32) (x : U32) :
    nextBlock (markWord (BitVec.ofNat 32 v) x) = v := by
  rw [nextBlock, markWord, Word.update_and_self (ofNat_and_nextMask h), BitVec.toNat_ofNat]
  omega

theorem isLastBlock_markWord {v : ℕ} (h : v < 32) (x : U32) :
    isLastBlock (markWord (BitVec.ofNat 32 v) x) = decide (v = 31) := by
  have hfield : markWord (BitVec.ofNat 32 v) x &&& WFNEXTBLK_NEXT_MASK = BitVec.ofNat 32 v :=
    Word.update_and_self (ofNat_and_nextMask h)
  rw [isLastBlock, hfield]
  by_cases hv : v = 31
  · subst hv
    rfl
  · have hne : BitVec.ofNat 32 v ≠ WFNEXTBLK_LAST := by
      intro heq
      have hnat := congrArg BitVec.toNat heq
      rw [BitVec.toNat_ofNat, show WFNEXTBLK_LAST.toNat = 31 from rfl] at hnat
      omega
    simp [hv, hne]

theorem chainOf_of_links {c : Channel} {n : ℕ} (hn : 0 < n) (hmax : n ≤ 26)
    (hlink : ∀ b, b + 1 < n → ∃ x, c.nextWord b = markWord (BitVec.ofNat 32 (b + 1)) x)
    (hlast : ∃ x, c.nextWord (n - 1) = markWord (BitVec.ofNat 32 31) x) : ChainOf c n := by
  intro m hm
  have hseg : ∀ k, k < n →
      ListSeg nextBlock isLastBlock c.nextWord 0 (List.range k) k := by
    intro k
    induction k with
    | zero => exact fun _ => rfl
    | succ k ih =>
      intro hk
      obtain ⟨x, hx⟩ := hlink k hk
      rw [List.range_succ]
      refine (ih (by omega)).snoc ?_ ?_
      · rw [hx, isLastBlock_markWord (by omega)]
        exact decide_eq_false (by omega)
      · rw [hx, nextBlock_markWord (by omega)]
  obtain ⟨x, hx⟩ := hlast
  have hmark : isLastBlock (c.nextWord (n - 1)) = true := by
    rw [hx, isLastBlock_markWord (by omega)]
    rfl
  rw [(hseg (n - 1) (by omega)).walk_eq hmark (by rw [List.length_range]; omega),
    ← List.range_succ, show (n - 1).succ = n by omega]

/-! ### Accepted sequences -/

theorem foldl_size_toNat (wvs : List Wave) (size : BitVec 64)
    (h : size.toNat + totalSize wvs < 2 ^ 63) :
    (wvs.foldl (fun size wv => size + wv.size.setWidth 64) size).toNat =
      size.toNat + totalSize wvs := by
  induction wvs generalizing size with
  | nil => rfl
  | cons wv wvs ih =>
    rw [totalSize, List.map_cons, List.sum_cons] at h
    have hadd : (size + wv.size.setWidth 64).toNat = size.toNat + wv.size.toNat := by
      rw [BitVec.toNat_add, BitVec.toNat_setWidth_of_le (by omega)]
      exact Nat.mod_eq_of_lt (by omega)
    rw [List.foldl_cons, ih _ (by rw [hadd, totalSize]; omega), hadd, totalSize, totalSize,
      List.map_cons, List.sum_cons]
    omega

theorem totalSize_le (wvs : List Wave) : totalSize wvs ≤ wvs.length * 2 ^ 32 := by
  induction wvs with
  | nil => exact Nat.zero_le _
  | cons wv wvs ih =>
    have := wv.size.isLt
    rw [totalSize] at ih
    rw [totalSize, List.map_cons, List.sum_cons, List.length_cons]
    omega

theorem storeseq_ok {o : ByteOrder} {status : ℕ → U32} {c : Channel} {seq : Seq}
    {r : Channel × Seq} (h : storeseq o status c seq = .ok r) :
    0 < seq.waves.length ∧ seq.waves.length ≤ 26 ∧ totalSize seq.waves ≤ 0x200000 ∧
      r = storeseqBody o c seq := by
  unfold storeseq at h
  split at h
  · cases h
  · rename_i hsize
    split at h
    · cases h
    · rename_i hlen
      rw [not_or, MAX_SEQUENCES, not_lt] at hlen
      split at h
      · cases h
      · -- at most 26 sizes cannot overflow the sum
        have hle := totalSize_le seq.waves
        have hsum : (seqSize seq.waves).toNat = totalSize seq.waves := by
          rw [seqSize, foldl_size_toNat _ _ (by simp; omega)]
          exact Nat.zero_add _
        rw [BitVec.slt_eq_decide, decide_eq_true_eq, not_lt,
          BitVec.toInt_eq_toNat_of_lt (by rw [hsum]; omega), hsum] at hsize
        rw [show SRAM_SIZE.toInt = 0x200000 from rfl] at hsize
        refine ⟨by omega, hlen.2, by omega, ?_⟩
        cases h
        rfl

theorem foldCycles_waves (seq : Seq) :
    (foldCycles seq).waves = seq.waves.map fun wv =>
      { wv with recurr := if seq.waves.length = 1 then wv.recurr * seq.nr else wv.recurr } := by
  unfold foldCycles
  split
  · rfl
  · exact (List.map_id' _).symm

theorem startAddr_map {f : Wave → Wave} (hf : ∀ wv, (f wv).size = wv.size) (ramaddr : ℕ)
    (wvs : List Wave) (k : ℕ) : startAddr ramaddr (wvs.map f) k = startAddr ramaddr wvs k := by
  simp [startAddr, ← List.map_take, comp_def, hf]

theorem totalSize_map {f : Wave → Wave} (hf : ∀ wv, (f wv).size = wv.size) (wvs : List Wave) :
    totalSize (wvs.map f) = totalSize wvs := by
  simp [totalSize, comp_def, hf]

theorem foldCycles_length (seq : Seq) : (foldCycles seq).waves.length = seq.waves.length := by
  rw [foldCycles_waves, List.length_map]

theorem foldCycles_totalSize (seq : Seq) :
    totalSize (foldCycles seq).waves = totalSize seq.waves := by
  have hsame : ∀ wv : Wave, ({ wv with recurr := if seq.waves.length = 1 then wv.recurr * seq.nr
      else wv.recurr } : Wave).size = wv.size := fun _ => rfl
  rw [foldCycles_waves, totalSize_map hsame]

theorem foldCycles_getElem? {seq : Seq} {i : ℕ} {wv : Wave} (h : seq.waves[i]? = some wv) :
    (foldCycles seq).waves[i]? = some { wv with
      recurr := if seq.waves.length = 1 then wv.recurr * seq.nr else wv.recurr } := by
  rw [foldCycles_waves, List.getElem?_map, h]
  rfl

theorem startAddr_add_size_le {wvs : List Wave} {k : ℕ} {wv : Wave} (hk : wvs[k]? = some wv) :
    startAddr 0 wvs k + wv.size.toNat ≤ totalSize wvs := by
  have hsplit : totalSize wvs = ((wvs.take k).map fun wv => wv.size.toNat).sum +
      ((wvs.drop k).map fun wv => wv.size.toNat).sum := by
    rw [← List.sum_append, ← List.map_append, List.take_append_drop, totalSize]
  have hdrop : wvs.drop k = wv :: wvs.drop (k + 1) := by
    obtain ⟨hlt, rfl⟩ := List.getElem?_eq_some_iff.mp hk
    exact List.drop_eq_getElem_cons hlt
  rw [hdrop, List.map_cons, List.sum_cons] at hsplit
  rw [hsplit, startAddr]
  omega

theorem blockLen_eq {c : Channel} {b : ℕ} {start recurr : U32} {wv : Wave}
    (h : c.descriptor b = (start, wv.size / 2, recurr)) (hlt : wv.size.toNat < 0x200000) :
    c.blockLen b = wv.form.length := by
  have hreg : c.regs (blockOffset b + WFLEN) = wv.size / 2 := congrArg (·.2.1) h
  have hmask := Word.toNat_and_low (wv.size / 2) 20 (by omega)
  rw [show BitVec.ofNat 32 (2 ^ 20 - 1) = WFLEN_MASK from rfl] at hmask
  rw [Channel.blockLen, hreg, hmask, BitVec.toNat_udiv, wv.form_length]
  exact Nat.mod_eq_of_lt (by simp; omega)

theorem blockStart_eq {c : Channel} {b : ℕ} {start len recurr : U32}
    (h : c.descriptor b = (start, len, recurr)) (hlt : start.toNat < 0x200000) :
    c.blockStart b = start.toNat := by
  have hreg : c.regs (blockOffset b + WFSTART) = start := congrArg (·.1) h
  have hmask := Word.toNat_and_low start 21 (by omega)
  rw [show BitVec.ofNat 32 (2 ^ 21 - 1) = WFSTART_MASK from rfl] at hmask
  rw [Channel.blockStart, hreg, hmask]
  exact Nat.mod_eq_of_lt hlt

section Accepted

variable {o : ByteOrder} {c : Channel} {n i : ℕ} {wvs : List Wave} {wv : Wave}

theorem storeWaves_chainOf (hpos : 0 < wvs.length) (hmax : wvs.length ≤ 26)
    (hsize : totalSize wvs ≤ 0x200000) :
    ChainOf (storeWaves o wvs.length 0 0 wvs c).1 wvs.length := by
  have hfit : (0 : U32).toNat + totalSize wvs < 2 ^ 32 := by simp; omega
  have hword : ∀ b, b < wvs.length →
      ∃ x, (storeWaves o wvs.length 0 0 wvs c).1.nextWord b =
        markWord (if b + 1 = wvs.length then WFNEXTBLK_LAST else BitVec.ofNat 32 (b + 1)) x := by
    intro b hb
    obtain ⟨x, hx⟩ := (storeWaves_block (o := o) (c := c) (Nat.zero_add _) hfit
      (List.getElem?_eq_getElem hb)).2
    rw [Nat.zero_add] at hx
    exact ⟨_, hx⟩
  refine chainOf_of_links hpos hmax (fun b hb => ?_) ?_
  · obtain ⟨x, hx⟩ := hword b (by omega)
    rw [if_neg (by omega)] at hx
    exact ⟨x, hx⟩
  · obtain ⟨x, hx⟩ := hword (wvs.length - 1) (by omega)
    rw [if_pos (by omega)] at hx
    exact ⟨x, hx⟩

theorem storeWaves_carries (hmax : wvs.length ≤ 26) (hsize : totalSize wvs ≤ 0x200000)
    (hi : wvs[i]? = some wv) :
    let c' := (storeWaves o wvs.length 0 0 wvs c).1
    c'.blockRecurr i = wv.recurr ∧ c'.blockGain i = waveGain wv ∧
      (wv.size ≠ 0x200000 → c'.blockLen i = wv.form.length ∧
        (Kept 0 wvs i → c'.blockPoints o i = wv.form.map normalizePoint)) := by
  intro c'
  have hfit : (0 : U32).toNat + totalSize wvs < 2 ^ 32 := by simp; omega
  have hlt : i < wvs.length := (List.getElem?_eq_some_iff.mp hi).1
  obtain ⟨⟨start, hstart, hdesc⟩, x, hx⟩ :=
    storeWaves_block (o := o) (c := c) (Nat.zero_add _) hfit hi
  rw [Nat.zero_add] at hdesc hx
  refine ⟨congrArg (·.2.2) hdesc, blockGain_eq ?_ hx, fun hne => ?_⟩
  · split
    · decide
    · exact ofNat_and_nextMask (by omega)
  · have hend := startAddr_add_size_le hi
    have hwv : wv.size.toNat < 0x200000 := by
      have hne' : wv.size.toNat ≠ 0x200000 := fun heq => hne (BitVec.eq_of_toNat_eq heq)
      omega
    have hlen := blockLen_eq hdesc hwv
    refine ⟨hlen, fun hkept => ?_⟩
    rw [Channel.blockPoints, hlen]
    by_cases hform : wv.form = []
    · rw [hform]
      rfl
    · -- a waveform with points starts inside the SRAM, so its address fits the register
      have hpoints := wv.form_length
      have hpos : 0 < wv.form.length := List.length_pos_iff.mpr hform
      have hs : start.toNat = startAddr 0 wvs i := hstart
      rw [blockStart_eq hdesc (by omega), hs]
      exact storeWaves_points hfit hi hkept

end Accepted

/-- **What an accepted sequence leaves in the channel.**  Whatever the blocks and the SRAM held
before, the blocks form the chain `0 .. n - 1`; block `i` carries the recurrence of waveform `i`
(times the number of cycles, when it is the only one), its gain and its length, and its points are
read back unless a later waveform starts in the word of the last one. -/
theorem storeseq_stores (o : ByteOrder) (status : ℕ → U32) (c : Channel) (seq : Seq)
    {c' : Channel} {seq' : Seq} (h : storeseq o status c seq = .ok (c', seq')) :
    ChainOf c' seq.waves.length ∧
      ∀ i wv, seq.waves[i]? = some wv →
        c'.blockRecurr i = (if seq.waves.length = 1 then wv.recurr * seq.nr else wv.recurr) ∧
        c'.blockGain i = waveGain wv ∧
        (wv.size ≠ 0x200000 → c'.blockLen i = wv.form.length ∧
          (Kept 0 seq.waves i → c'.blockPoints o i = wv.form.map normalizePoint)) := by
  obtain ⟨hpos, hmax, hsize, hr⟩ := storeseq_ok h
  have hc : c' = (storeWaves o (foldCycles seq).waves.length 0 0 (foldCycles seq).waves
      (c.wchan SEQNR (foldCycles seq).nr)).1 := congrArg Prod.fst hr
  have hsame : ∀ wv : Wave, ({ wv with recurr := if seq.waves.length = 1 then wv.recurr * seq.nr
      else wv.recurr } : Wave).size = wv.size := fun _ => rfl
  have hlen := foldCycles_length seq
  have htotal : totalSize (foldCycles seq).waves ≤ 0x200000 := by
    rw [foldCycles_totalSize]
    exact hsize
  subst hc
  constructor
  · rw [← hlen]
    exact storeWaves_chainOf (by rw [hlen]; exact hpos) (by rw [hlen]; exact hmax) htotal
  · intro i wv hi
    obtain ⟨hrecurr, hgain, hrest⟩ := storeWaves_carries (o := o)
      (c := c.wchan SEQNR (foldCycles seq).nr) (by rw [hlen]; exact hmax) htotal
      (foldCycles_getElem? hi)
    refine ⟨hrecurr, hgain, fun hne => ⟨(hrest hne).1, fun hkept => (hrest hne).2 ?_⟩⟩
    intro v hv j v' hj hv' hform
    rw [foldCycles_waves, List.getElem?_map] at hv hv'
    obtain ⟨u, hu, rfl⟩ := Option.map_eq_some_iff.mp hv
    obtain ⟨u', hu', rfl⟩ := Option.map_eq_some_iff.mp hv'
    rw [foldCycles_waves, startAddr_map hsame, startAddr_map hsame]
    exact hkept u hu j u' hj hu' hform

theorem startAddr_add_size_le_startAddr (ramaddr : ℕ) {wvs : List Wave} {k j : ℕ} {wv : Wave}
    (hk : wvs[k]? = some wv) (hj : k < j) :
    startAddr ramaddr wvs k + wv.size.toNat ≤ startAddr ramaddr wvs j := by
  have hle : startAddr 0 (wvs.take j) k + wv.size.toNat ≤ totalSize (wvs.take j) :=
    startAddr_add_size_le (by rw [List.getElem?_take_of_lt hj]; exact hk)
  rw [startAddr, List.take_take, min_eq_left hj.le, totalSize] at hle
  unfold startAddr
  omega

theorem kept_of_even {ramaddr : ℕ} {wvs : List Wave} {k : ℕ} {wv : Wave}
    (hk : wvs[k]? = some wv) (heven : wv.form.length % 2 = 0) : Kept ramaddr wvs k := by
  intro v hv j _ hj _ _
  obtain rfl : wv = v := Option.some.inj (hk.symm.trans hv)
  have hnext := startAddr_add_size_le_startAddr ramaddr hk hj
  have hlen := wv.form_length
  omega

theorem kept_of_last {ramaddr : ℕ} {wvs : List Wave} {k : ℕ} (hlast : wvs.length ≤ k + 1) :
    Kept ramaddr wvs k := by
  intro _ _ j _ hj hget _
  have hlt := (List.getElem?_eq_some_iff.mp hget).1
  omega

/-- A channel with nothing in it. -/
def blankChannel : Channel := ⟨fun _ => 0, 0, fun _ => 0⟩

/-- Four points, played twice, and that three times. -/
def loopedSeq : Seq := ⟨3, [⟨2, 8, 1, 7, [4, 8, 12, 16], by decide⟩]⟩

/-- Three points, then two: the second waveform starts in the second word of the first one. -/
def oddSeq : Seq := ⟨1, [⟨1, 6, 0, 0, [4, 8, 12], by decide⟩, ⟨1, 4, 0, 0, [16, 20], by decide⟩]⟩

/-- An even waveform, then an odd one. -/
def evenOddSeq : Seq :=
  ⟨5, [⟨1, 4, 1, 9, [5, 6], by decide⟩, ⟨2, 6, 0, 0, [16, 0xffff, 3], by decide⟩]⟩

theorem storeseq_evenOddSeq :
    let c' := (storeseqBody .little blankChannel evenOddSeq).1
    ChainOf c' 2 ∧ c'.blockRecurr 1 = 2 ∧ c'.blockGain 0 = some 5 ∧
      c'.blockPoints .little 0 = [4, 4] ∧ c'.blockPoints .little 1 = [16, 0xfffc, 4] := by
  intro c'
  have hok : storeseq .little (fun _ => 0) blankChannel evenOddSeq =
      .ok (storeseqBody .little blankChannel evenOddSeq) := by
    rw [storeseq, if_neg (by decide +kernel), if_neg (by decide +kernel),
      if_neg (by decide +kernel)]
  obtain ⟨hchain, hblocks⟩ := storeseq_stores .little (fun _ => 0) blankChannel evenOddSeq hok
  obtain ⟨-, hgain, hrest⟩ := hblocks 0 _ rfl
  obtain ⟨hrecurr, -, hrest'⟩ := hblocks 1 _ rfl
  exact ⟨hchain, hrecurr, hgain, (hrest (by decide)).2 (kept_of_even rfl rfl),
    (hrest' (by decide)).2 (kept_of_last (by decide))⟩

/-- A single waveform does not carry its own recurrence, and three points followed by another
waveform do not come back. -/
theorem not_storesSequence :
    (storeseq .little (fun _ => 0) blankChannel loopedSeq =
        .ok (storeseqBody .little blankChannel loopedSeq) ∧
      ¬ StoresSequence .little (storeseqBody .little blankChannel loopedSeq).1 loopedSeq) ∧
    storeseq .little (fun _ => 0) blankChannel oddSeq =
        .ok (storeseqBody .little blankChannel oddSeq) ∧
      ¬ StoresSequence .little (storeseqBody .little blankChannel oddSeq).1 oddSeq := by
  refine ⟨⟨?_, fun h => ?_⟩, ?_, fun h => ?_⟩
  · rw [storeseq, if_neg (by decide +kernel), if_neg (by decide +kernel),
      if_neg (by decide +kernel)]
  · obtain ⟨hrecurr, -⟩ := h.2 0 _ rfl
    exact absurd hrecurr (by decide +kernel)
  · rw [storeseq, if_neg (by decide +kernel), if_neg (by decide +kernel),
      if_neg (by decide +kernel)]
  · obtain ⟨-, -, -, hpoints⟩ := h.2 0 _ rfl
    exact absurd hpoints (by decide +kernel)

end KernelModules.Cvorg
