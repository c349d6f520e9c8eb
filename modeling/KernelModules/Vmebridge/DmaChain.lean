import Mathlib.Data.List.Nodup
import KernelModules.Lib.LinkedChain
import KernelModules.Lib.Tiling
import KernelModules.Vmebridge.Tsi148Window

/-!
# DMA descriptor chains of the TSI148

The DMA half of `tsi148.c`.  A transfer is a list of bus segments; `tsi148_dma_link_add` cuts
each segment at the VME block boundaries its address modifier asks for, writes one hardware
descriptor per piece and links it to the next block taken from the descriptor pool.

* `hwdescInit`, `linkLoop`, `chainLoop`, `tsi148DmaSetupChain` follow the source; the pool is
  a parameter that may refuse any request;
* `Tsi148DmaDesc.piece` is what the chip makes of a descriptor: a PCI address, a VME address
  and a byte count;
* `linkLoop_spec` and `chainLoop_spec`: unless the pool refuses a block, the loops leave a
  closed chain in memory whose pieces lie end to end and stay inside their VME blocks;
* `chainLoop_wrapped`: a segment that ends on the last VME address is lost.
-/

namespace KernelModules.Vmebridge

open Function KernelModules.Lib KernelModules.Lib.Word

/-! ### Transfer descriptors -/

/-- `dma_addr_t`. -/
abbrev DmaAddr := BitVec 64

/-- `enum vme_dma_dir`. -/
inductive DmaDir
  | toDevice | fromDevice
  | other (code : ℕ)
  deriving DecidableEq, Repr

/-- `struct vme_dma_attr`. -/
structure VmeDmaAttr where
  dataWidth : DataWidth
  am : AddressModifier
  v2esstMode : SstMode
  bcastSelect : U32
  addru : U32
  addrl : U32
  deriving DecidableEq, Repr

/-- `struct vme_dma_ctrl`; block sizes and backoff times are enumerations from 0 to 7. -/
structure VmeDmaCtrl where
  vmeBlockSize : ℕ
  vmeBackoffTime : ℕ
  pciBlockSize : ℕ
  pciBackoffTime : ℕ
  deriving DecidableEq, Repr

/-- `struct vme_dma`, without the status handed back. -/
structure VmeDma where
  length : U32
  novmeinc : U32
  dir : DmaDir
  src : VmeDmaAttr
  dst : VmeDmaAttr
  ctrl : VmeDmaCtrl
  deriving DecidableEq, Repr

/-- `tsi148_setup_dma_attributes`; `none` is `-EINVAL`. -/
def tsi148SetupDmaAttributes (v2esstMode : SstMode) (dataWidth : DataWidth)
    (am : AddressModifier) : Option U32 := do
  let mode ← v2esstMode.code
  let dbw ← dataWidth.code
  let attr ← amToAttr am
  return ((mode <<< 11) &&& (3#32 <<< 11)) ||| ((dbw <<< 6) &&& (3#32 <<< 6))
    ||| ((attr.transferMode.code <<< 8) &&& (7#32 <<< 8))
    ||| (if attr.super then 1#32 <<< 5 else 0) ||| (if attr.prog then 1#32 <<< 4 else 0)
    ||| (attr.addrSize.code &&& 0xf#32)

/-- `tsi148_dma_setup_src`. -/
def tsi148DmaSetupSrc (desc : VmeDma) : Option U32 :=
  match desc.dir with
  | .toDevice => some 0
  | .fromDevice =>
    (tsi148SetupDmaAttributes desc.src.v2esstMode desc.src.dataWidth desc.src.am).map
      (· ||| 1#32 <<< 28)
  | .other _ => none

/-- `tsi148_dma_setup_dst`. -/
def tsi148DmaSetupDst (desc : VmeDma) : Option U32 :=
  match desc.dir with
  | .toDevice =>
    (tsi148SetupDmaAttributes desc.dst.v2esstMode desc.dst.dataWidth desc.dst.am).map
      (· ||| 1#32 <<< 28)
  | .fromDevice => some 0
  | .other _ => none

/-- `tsi148_dma_setup_ctl`. -/
def tsi148DmaSetupCtl (ctrl : VmeDmaCtrl) : Option U32 :=
  if ctrl.vmeBlockSize > 7 ∨ ctrl.vmeBackoffTime > 7 ∨ ctrl.pciBlockSize > 7
      ∨ ctrl.pciBackoffTime > 7 then none
  else some (((BitVec.ofNat 32 ctrl.vmeBlockSize <<< 12) &&& (7#32 <<< 12))
    ||| ((BitVec.ofNat 32 ctrl.vmeBackoffTime <<< 8) &&& (7#32 <<< 8))
    ||| ((BitVec.ofNat 32 ctrl.pciBlockSize <<< 4) &&& (7#32 <<< 4))
    ||| (BitVec.ofNat 32 ctrl.pciBackoffTime &&& 7#32))

/-- `get_vmeaddr`. -/
def getVmeaddr (desc : VmeDma) : Option U32 :=
  match desc.dir with
  | .toDevice => some desc.dst.addrl
  | .fromDevice => some desc.src.addrl
  | .other _ => none

/-- `__tsi148_get_bshift`: block transfers stay inside 256 or 2048 bytes, other modes are not
split. -/
def AddressModifier.bshift : AddressModifier → ℕ
  | a64Mblt | a32UserMblt | a32SupMblt | a24UserMblt | a24SupMblt => 11
  | a64Blt | a32UserBlt | a32SupBlt | a40Blt | a24UserBlt | a24SupBlt => 8
  | _ => 0

/-- `tsi148_get_bshift`. -/
def tsi148GetBshift (desc : VmeDma) : ℕ :=
  if desc.dir = .fromDevice then desc.src.am.bshift else desc.dst.am.bshift

theorem tsi148GetBshift_le (desc : VmeDma) : tsi148GetBshift desc ≤ 11 := by
  have hle : ∀ am : AddressModifier, am.bshift ≤ 11 := by
    intro am
    unfold AddressModifier.bshift
    split <;> omega
  unfold tsi148GetBshift
  split <;> exact hle _

/-! ### Hardware descriptors and the pool -/

/-- `struct tsi148_dma_desc`. -/
structure Tsi148DmaDesc where
  dsau : U32
  dsal : U32
  ddau : U32
  ddal : U32
  dsat : U32
  ddat : U32
  dnlau : U32
  dnlal : U32
  dcnt : U32
  ddbs : U32
  deriving DecidableEq, Repr

/-- A block of cleared memory. -/
def Tsi148DmaDesc.zero : Tsi148DmaDesc := ⟨0, 0, 0, 0, 0, 0, 0, 0, 0, 0⟩

/-- `TSI148_LCSR_DNLAL_LLA`. -/
def dnlalLla : U32 := 1#32

/-- `TSI148_LCSR_DNLAL_DNLAL_M`. -/
def dnlalMask : U32 := 0x1fffffff#32 <<< 3

/-- The descriptors of a channel and the memory they live in.  A block of the pool is named by
its bus address; `asked` counts the requests made so far. -/
structure Chain where
  mem : DmaAddr → Tsi148DmaDesc
  pool : List DmaAddr
  entries : ℕ
  hwDescList : List DmaAddr
  asked : ℕ

/-- The answers of the allocators to the requests for a descriptor: the block the pool hands
out, given the blocks in use, and whether there is memory for the list entry. -/
structure PoolEnv where
  alloc : ℕ → List DmaAddr → Option DmaAddr
  entry : ℕ → Bool

/-- What `pci_pool_alloc` promises for a pool made with `pci_pool_create(.., 8, 4096)` on a
bus below 4G: the block is not in use and 64-bit aligned. -/
def PoolEnv.Fresh (env : PoolEnv) : Prop :=
  ∀ k pool a, env.alloc k pool = some a → a ∉ pool ∧ a.toNat % 8 = 0 ∧ a.toNat < 2 ^ 32

/-- `hwdesc_init`: the block goes back to the pool when its list entry cannot be allocated. -/
def hwdescInit (env : PoolEnv) (c : Chain) : Option DmaAddr × Chain :=
  match env.alloc c.asked c.pool with
  | none => (none, { c with asked := c.asked + 1 })
  | some phys =>
    let taken := phys :: c.pool
    if env.entry c.asked then
      (some phys, { c with
        pool := taken, entries := c.entries + 1, hwDescList := c.hwDescList ++ [phys]
        asked := c.asked + 1 })
    else (none, { c with pool := taken.erase phys, asked := c.asked + 1 })

/-- `tsi148_dma_free_chain`. -/
def tsi148DmaFreeChain (c : Chain) : Chain :=
  { c with
    pool := c.hwDescList.foldl List.erase c.pool
    entries := c.entries - c.hwDescList.length
    hwDescList := [] }

/-- `tsi148_fill_dma_desc`.  The caller does not look at its result, so that an invalid
direction only clears the upper address words. -/
def tsi148FillDmaDesc (desc : VmeDma) (vme : U32) (dma : DmaAddr) (len dsat ddat : U32)
    (tsi : Tsi148DmaDesc) : Tsi148DmaDesc :=
  match desc.dir with
  | .toDevice =>
    { dsau := 0, ddau := 0, dsal := dma.setWidth 32, ddal := vme, ddbs := desc.dst.bcastSelect
      dcnt := len, dsat, ddat, dnlau := 0, dnlal := dnlalLla }
  | .fromDevice =>
    { dsau := 0, ddau := 0, dsal := vme, ddal := dma.setWidth 32, ddbs := 0
      dcnt := len, dsat, ddat, dnlau := 0, dnlal := dnlalLla }
  | .other _ => { tsi with dsau := 0, ddau := 0 }

/-- Chaining a descriptor to the block at `phys`. -/
def Tsi148DmaDesc.linkTo (tsi : Tsi148DmaDesc) (phys : DmaAddr) : Tsi148DmaDesc :=
  { tsi with dnlau := 0, dnlal := phys.setWidth 32 &&& dnlalMask }

def Chain.store (c : Chain) (a : DmaAddr) (tsi : Tsi148DmaDesc) : Chain :=
  { c with mem := update c.mem a tsi }

/-! ### Building the chain -/

/-- The length of the next piece: up to the block boundary when the mode has blocks, and not
beyond the end of the segment. -/
def pieceLen (bshift : ℕ) (vme : U32) (dma dmaEnd : DmaAddr) (len : U32) : U32 :=
  let len := if bshift ≠ 0 then
      let bsize := 1#32 <<< bshift
      let bmask := bsize - 1
      bsize - (vme &&& bmask)
    else len
  if dmaEnd < dma + len.setWidth 64 then (dmaEnd - dma).setWidth 32 else len

/-- How the cutting of one segment ends. -/
inductive LinkOut
  | done (virt : Option DmaAddr) (c : Chain)
  | nomem (c : Chain)
  | bug (c : Chain)

/-- The `while` loop of `tsi148_dma_link_add`.  `more` says that this is not the last segment.
Every pass moves `dma` on, so that as many passes as the segment has bytes are enough. -/
def linkLoop (env : PoolEnv) (desc : VmeDma) (dsat ddat : U32) (bshift : ℕ) (more : Bool)
    (vmeEnd : U32) (dmaEnd : DmaAddr) :
    ℕ → U32 → DmaAddr → U32 → Option DmaAddr → Option DmaAddr → Chain → LinkOut
  | 0, _, _, _, _, next, c => .done next c
  | fuel + 1, vme, dma, len, curr, next, c =>
    if vme < vmeEnd ∧ dma < dmaEnd then
      match curr with
      | none => .bug c
      | some a =>
        let len := pieceLen bshift vme dma dmaEnd len
        let c := c.store a (tsi148FillDmaDesc desc vme dma len dsat ddat (c.mem a))
        let vme := if desc.novmeinc = 0 then vme + len else vme
        let dma := dma + len.setWidth 64
        if more ∨ dma < dmaEnd then
          match hwdescInit env c with
          | (none, c) => .nomem c
          | (some phys, c) =>
            let c := c.store a ((c.mem a).linkTo phys)
            linkLoop env desc dsat ddat bshift more vmeEnd dmaEnd fuel vme dma len (some phys)
              (some phys) c
        else
          linkLoop env desc dsat ddat bshift more vmeEnd dmaEnd fuel vme dma len next next c
    else .done next c

/-- A bus segment: `sg_dma_address` and `sg_dma_len` of a scatterlist entry. -/
structure Segment where
  addr : DmaAddr
  len : U32
  deriving DecidableEq, Repr

/-- `tsi148_dma_link_add`. -/
def tsi148DmaLinkAdd (env : PoolEnv) (desc : VmeDma) (dsat ddat : U32) (bshift : ℕ) (more : Bool)
    (virt : Option DmaAddr) (vmeAddr : U32) (seg : Segment) (c : Chain) : LinkOut :=
  match virt with
  | none => .bug c
  | some _ =>
    linkLoop env desc dsat ddat bshift more (vmeAddr + seg.len) (seg.addr + seg.len.setWidth 64)
      seg.len.toNat vmeAddr seg.addr seg.len virt none c

/-- The loop of `tsi148_dma_setup_chain` over the mapped segments. -/
def chainLoop (env : PoolEnv) (desc : VmeDma) (dsat ddat : U32) (bshift : ℕ) :
    List Segment → Option DmaAddr → U32 → Chain → LinkOut
  | [], curr, _, c => .done curr c
  | seg :: segs, curr, vmeAddr, c =>
    match tsi148DmaLinkAdd env desc dsat ddat bshift (!segs.isEmpty) curr vmeAddr seg c with
    | .done curr c =>
      chainLoop env desc dsat ddat bshift segs curr
        (if desc.novmeinc = 0 then vmeAddr + seg.len else vmeAddr) c
    | .nomem c => .nomem c
    | .bug c => .bug c

/-- How setting up a chain ends: with the value for the link register, with an error, or in a
`BUG_ON`. -/
inductive ChainOut
  | ready (dnlal : U32)
  | error (e : Errno)
  | bug
  deriving DecidableEq

/-- `tsi148_dma_setup_chain`. -/
def tsi148DmaSetupChain (env : PoolEnv) (desc : VmeDma) (dsat ddat : U32) (segs : List Segment)
    (c : Chain) : ChainOut × Chain :=
  match hwdescInit env c with
  | (none, c) => (.error .ENOMEM, c)
  | (some phys, c) =>
    match getVmeaddr desc with
    | none => (.error .EINVAL, tsi148DmaFreeChain c)
    | some vmeAddr =>
      match chainLoop env desc dsat ddat (tsi148GetBshift desc) segs (some phys) vmeAddr c with
      | .done _ c => (.ready (phys.setWidth 32 &&& dnlalMask), c)
      | .nomem c => (.error .ENOMEM, tsi148DmaFreeChain c)
      | .bug c => (.bug, c)

/-! ### What the chip reads -/

/-- A piece of a transfer: two bus addresses and a byte count. -/
structure Piece where
  pci : ℕ
  vme : ℕ
  len : ℕ
  deriving DecidableEq, Repr

/-- What the chip makes of a descriptor. -/
def Tsi148DmaDesc.piece (dir : DmaDir) (d : Tsi148DmaDesc) : Piece :=
  match dir with
  | .toDevice => ⟨join d.dsau d.dsal, join d.ddau d.ddal, d.dcnt.toNat⟩
  | _ => ⟨join d.ddau d.ddal, join d.dsau d.dsal, d.dcnt.toNat⟩

/-- The end-of-chain bit. -/
def Tsi148DmaDesc.isLast (d : Tsi148DmaDesc) : Bool := d.dnlal &&& dnlalLla != 0

/-- The address of the next descriptor. -/
def Tsi148DmaDesc.next (d : Tsi148DmaDesc) : DmaAddr :=
  BitVec.ofNat 64 (join d.dnlau (d.dnlal &&& dnlalMask))

theorem Tsi148DmaDesc.zero_isLast : Tsi148DmaDesc.zero.isLast = false := by decide

/-! ### One piece -/

theorem dnlalMask_eq : dnlalMask = ~~~(BitVec.ofNat 32 (2 ^ 3 - 1)) := rfl

theorem tsi148FillDmaDesc_piece {desc : VmeDma}
    (hdir : desc.dir = .toDevice ∨ desc.dir = .fromDevice) {dma : DmaAddr}
    (hdma : dma.toNat < 2 ^ 32) (vme len dsat ddat : U32) (tsi : Tsi148DmaDesc) :
    (tsi148FillDmaDesc desc vme dma len dsat ddat tsi).piece desc.dir
      = ⟨dma.toNat, vme.toNat, len.toNat⟩ := by
  have hlow : (dma.setWidth 32).toNat = dma.toNat := by
    rw [BitVec.toNat_setWidth]
    omega
  obtain h | h := hdir <;>
    simp only [tsi148FillDmaDesc, Tsi148DmaDesc.piece, h, join_zero, hlow]

theorem tsi148FillDmaDesc_isLast {desc : VmeDma}
    (hdir : desc.dir = .toDevice ∨ desc.dir = .fromDevice) (vme len dsat ddat : U32) (dma : DmaAddr)
    (tsi : Tsi148DmaDesc) : (tsi148FillDmaDesc desc vme dma len dsat ddat tsi).isLast = true := by
  obtain h | h := hdir <;> simp [tsi148FillDmaDesc, Tsi148DmaDesc.isLast, h, dnlalLla]

@[simp] theorem Tsi148DmaDesc.linkTo_piece (tsi : Tsi148DmaDesc) (phys : DmaAddr) (dir : DmaDir) :
    (tsi.linkTo phys).piece dir = tsi.piece dir := by
  cases dir <;> rfl

@[simp] theorem Tsi148DmaDesc.linkTo_isLast (tsi : Tsi148DmaDesc) (phys : DmaAddr) :
    (tsi.linkTo phys).isLast = false := by
  have hbit : phys.setWidth 32 &&& dnlalMask &&& dnlalLla = 0 := by
    rw [BitVec.and_assoc, show dnlalMask &&& dnlalLla = 0 from rfl]
    simp
  simp [Tsi148DmaDesc.isLast, Tsi148DmaDesc.linkTo, hbit]

theorem Tsi148DmaDesc.linkTo_next {phys : DmaAddr} (h8 : phys.toNat % 8 = 0)
    (hlt : phys.toNat < 2 ^ 32) (tsi : Tsi148DmaDesc) : (tsi.linkTo phys).next = phys := by
  have hmask : (phys.setWidth 32 &&& dnlalMask &&& dnlalMask).toNat = phys.toNat := by
    rw [BitVec.and_assoc, BitVec.and_self, dnlalMask_eq, toNat_and_not_low, BitVec.toNat_setWidth]
    omega
  apply BitVec.eq_of_toNat_eq
  simp only [Tsi148DmaDesc.next, Tsi148DmaDesc.linkTo, join_zero, hmask, BitVec.toNat_ofNat]
  omega

theorem blockRoom_toNat {bshift : ℕ} (hb : bshift ≤ 11) (vme : U32) :
    (1#32 <<< bshift - (vme &&& (1#32 <<< bshift - 1))).toNat
      = 2 ^ bshift - vme.toNat % 2 ^ bshift := by
  have hpow : 2 ^ bshift ≤ 2 ^ 11 := Nat.pow_le_pow_right (by omega) hb
  have hpos : 0 < 2 ^ bshift := Nat.two_pow_pos bshift
  have hsize : (1#32 <<< bshift).toNat = 2 ^ bshift := by
    rw [BitVec.toNat_shiftLeft, show (1#32 : U32).toNat = 1 from rfl, Nat.shiftLeft_eq, one_mul]
    omega
  have hmask : (1#32 <<< bshift - 1 : U32) = BitVec.ofNat 32 (2 ^ bshift - 1) := by
    apply BitVec.eq_of_toNat_eq
    rw [BitVec.toNat_sub, hsize, BitVec.toNat_ofNat, show (1 : U32).toNat = 1 from rfl]
    omega
  have hmod := Nat.mod_lt vme.toNat hpos
  rw [hmask, BitVec.toNat_sub, hsize, toNat_and_low vme bshift (by omega)]
  omega

theorem pieceLen_toNat {bshift : ℕ} (hb : bshift ≤ 11) (vme : U32) {len : U32}
    {dma dmaEnd : DmaAddr} {r : ℕ}
    (hr : dma.toNat + r = dmaEnd.toNat) (hr32 : r < 2 ^ 32) (hend : dmaEnd.toNat ≤ 2 ^ 32)
    (hlen : bshift = 0 → len.toNat = r) :
    (pieceLen bshift vme dma dmaEnd len).toNat
      = if bshift = 0 then r else min (2 ^ bshift - vme.toNat % 2 ^ bshift) r := by
  -- both branches of the first test give some length `l`, which is then cut at the end
  have hcut : ∀ l : U32, (if dmaEnd < dma + l.setWidth 64 then (dmaEnd - dma).setWidth 32 else l
      : U32).toNat = min l.toNat r := by
    intro l
    have hl := l.isLt
    have hsum : (dma + l.setWidth 64).toNat = dma.toNat + l.toNat := by
      rw [BitVec.toNat_add, BitVec.toNat_setWidth]
      omega
    have hrest : ((dmaEnd - dma).setWidth 32 : U32).toNat = r := by
      rw [BitVec.toNat_setWidth, BitVec.toNat_sub]
      omega
    by_cases h : dmaEnd < dma + l.setWidth 64
    · rw [if_pos h, hrest]
      rw [BitVec.lt_def, hsum] at h
      omega
    · rw [if_neg h]
      rw [BitVec.lt_def, hsum] at h
      omega
  unfold pieceLen
  by_cases h0 : bshift = 0
  · simp only [h0, ne_eq, not_true_eq_false, if_false, if_true, hcut, hlen h0]
    omega
  · simp only [h0, ne_eq, not_false_eq_true, if_true, if_false]
    rw [hcut, blockRoom_toNat hb]

/-! ### The chain under construction -/

/-- The cells at `as` lead from `a` to `b` through the link words of the descriptors. -/
abbrev DescSeg (mem : DmaAddr → Tsi148DmaDesc) : DmaAddr → List DmaAddr → DmaAddr → Prop :=
  ListSeg Tsi148DmaDesc.next Tsi148DmaDesc.isLast mem

/-- The blocks on the descriptor list are distinct, in use, aligned and below 4G. -/
structure Chain.Sound (c : Chain) : Prop where
  nodup : c.hwDescList.Nodup
  inUse : ∀ a ∈ c.hwDescList, a ∈ c.pool
  aligned : ∀ a ∈ c.hwDescList, a.toNat % 8 = 0
  low : ∀ a ∈ c.hwDescList, a.toNat < 2 ^ 32

/-- Descriptors are written and linked at `as`, they hold `ps`, and the block `curr` at the end
of the list is still to be written. -/
structure Built (dir : DmaDir) (c : Chain) (start : DmaAddr) (as : List DmaAddr) (ps : List Piece)
    (curr : DmaAddr) : Prop where
  sound : c.Sound
  list : c.hwDescList = as ++ [curr]
  seg : DescSeg c.mem start as curr
  pieces : as.map (fun a => (c.mem a).piece dir) = ps

/-- The chain is complete: every block on the list is written, and the last one is marked. -/
structure Closed (dir : DmaDir) (c : Chain) (start : DmaAddr) (ps : List Piece) : Prop where
  sound : c.Sound
  chain : ∃ as last, c.hwDescList = as ++ [last] ∧ DescSeg c.mem start as last ∧
    (c.mem last).isLast = true
  pieces : c.hwDescList.map (fun a => (c.mem a).piece dir) = ps

@[simp] theorem Chain.store_hwDescList (c : Chain) (a : DmaAddr) (tsi : Tsi148DmaDesc) :
    (c.store a tsi).hwDescList = c.hwDescList := rfl

@[simp] theorem Chain.store_self (c : Chain) (a : DmaAddr) (tsi : Tsi148DmaDesc) :
    (c.store a tsi).mem a = tsi := by
  simp [Chain.store]

theorem Chain.store_ne (c : Chain) {a b : DmaAddr} (tsi : Tsi148DmaDesc) (h : b ≠ a) :
    (c.store a tsi).mem b = c.mem b := by
  simp [Chain.store, h]

theorem Chain.Sound.store {c : Chain} (h : c.Sound) (a : DmaAddr) (tsi : Tsi148DmaDesc) :
    (c.store a tsi).Sound := ⟨h.nodup, h.inUse, h.aligned, h.low⟩

theorem hwdescInit_cases (env : PoolEnv) (c : Chain) :
    (∃ c', hwdescInit env c = (none, c')) ∨
    ∃ phys c', hwdescInit env c = (some phys, c') ∧ env.alloc c.asked c.pool = some phys ∧
      c'.mem = c.mem ∧ c'.hwDescList = c.hwDescList ++ [phys] ∧ c'.pool = phys :: c.pool := by
  unfold hwdescInit
  split
  · exact .inl ⟨_, rfl⟩
  · rename_i phys halloc
    simp only
    split
    · exact .inr ⟨phys, _, rfl, halloc, rfl, rfl, rfl⟩
    · exact .inl ⟨_, rfl⟩

theorem Chain.Sound.append {c c' : Chain} (h : c.Sound) {phys : DmaAddr} (hnew : phys ∉ c.pool)
    (h8 : phys.toNat % 8 = 0) (hlt : phys.toNat < 2 ^ 32)
    (hlist : c'.hwDescList = c.hwDescList ++ [phys]) (hpool : c'.pool = phys :: c.pool) :
    c'.Sound := by
  have hsplit : ∀ {P : DmaAddr → Prop}, (∀ a ∈ c.hwDescList, P a) → P phys →
      ∀ a ∈ c'.hwDescList, P a := by
    intro P hold hone a ha
    rw [hlist, List.mem_append, List.mem_singleton] at ha
    rcases ha with ha | rfl
    · exact hold a ha
    · exact hone
  refine ⟨?_, ?_, hsplit h.aligned h8, hsplit h.low hlt⟩
  · rw [hlist, List.nodup_append]
    refine ⟨h.nodup, List.nodup_singleton phys, ?_⟩
    rintro a ha b hb rfl
    rw [List.mem_singleton] at hb
    exact hnew (hb ▸ h.inUse a ha)
  · refine hsplit (fun a ha => ?_) ?_
    · rw [hpool]
      exact List.mem_cons_of_mem phys (h.inUse a ha)
    · rw [hpool]
      exact List.mem_cons_self

theorem Built.curr_not_mem {dir : DmaDir} {c : Chain} {start curr : DmaAddr} {as : List DmaAddr}
    {ps : List Piece} (h : Built dir c start as ps curr) : ∀ a ∈ as, a ≠ curr := by
  have hnd := h.sound.nodup
  rw [h.list, List.nodup_append] at hnd
  intro a ha
  exact hnd.2.2 a ha curr (List.mem_singleton.mpr rfl)

theorem Built.pieces_store {dir : DmaDir} {c : Chain} {start curr : DmaAddr} {as : List DmaAddr}
    {ps : List Piece} (h : Built dir c start as ps curr) (tsi : Tsi148DmaDesc) :
    as.map (fun a => ((c.store curr tsi).mem a).piece dir) = ps := by
  rw [← h.pieces]
  apply List.map_congr_left
  intro a ha
  rw [Chain.store_ne c tsi (h.curr_not_mem a ha)]

theorem Built.seg_store {dir : DmaDir} {c : Chain} {start curr : DmaAddr} {as : List DmaAddr}
    {ps : List Piece} (h : Built dir c start as ps curr) (tsi : Tsi148DmaDesc) :
    DescSeg (c.store curr tsi).mem start as curr :=
  h.seg.frame fun a ha => Chain.store_ne c tsi (h.curr_not_mem a ha)

theorem Built.close {dir : DmaDir} {c : Chain} {start curr : DmaAddr} {as : List DmaAddr}
    {ps : List Piece} (h : Built dir c start as ps curr) {tsi : Tsi148DmaDesc} {x : Piece}
    (hlast : tsi.isLast = true) (hx : tsi.piece dir = x) :
    Closed dir (c.store curr tsi) start (ps ++ [x]) := by
  refine ⟨h.sound.store _ _, ⟨as, curr, h.list, h.seg_store tsi, ?_⟩, ?_⟩
  · rw [Chain.store_self]
    exact hlast
  · rw [Chain.store_hwDescList, h.list, List.map_append, h.pieces_store tsi]
    simp [hx]

theorem Built.grow {dir : DmaDir} {c c' : Chain} {start curr phys : DmaAddr} {as : List DmaAddr}
    {ps : List Piece} (h : Built dir c start as ps curr) {tsi : Tsi148DmaDesc} {x : Piece}
    (hx : tsi.piece dir = x) (hmem : c'.mem = (c.store curr tsi).mem)
    (hlist : c'.hwDescList = c.hwDescList ++ [phys]) (hsound : c'.Sound) :
    Built dir (c'.store curr ((c'.mem curr).linkTo phys)) start (as ++ [curr]) (ps ++ [x])
      phys := by
  have hphys : phys ∈ c'.hwDescList := by
    rw [hlist]
    exact List.mem_append_right _ (List.mem_singleton.mpr rfl)
  have hcurr : c'.mem curr = tsi := by
    rw [hmem, Chain.store_self]
  have hother : ∀ a ∈ as,
      (c'.store curr ((c'.mem curr).linkTo phys)).mem a = (c.store curr tsi).mem a := by
    intro a ha
    rw [Chain.store_ne _ _ (h.curr_not_mem a ha), hmem]
  have hself : (c'.store curr ((c'.mem curr).linkTo phys)).mem curr = tsi.linkTo phys := by
    rw [Chain.store_self, hcurr]
  refine ⟨hsound.store _ _, ?_, ?_, ?_⟩
  · rw [Chain.store_hwDescList, hlist, h.list]
  · refine ListSeg.snoc ((h.seg_store tsi).frame hother) ?_ ?_
    · rw [hself]
      exact Tsi148DmaDesc.linkTo_isLast tsi phys
    · rw [hself]
      exact Tsi148DmaDesc.linkTo_next (hsound.aligned phys hphys) (hsound.low phys hphys) tsi
  · rw [List.map_append, List.map_singleton, hself, Tsi148DmaDesc.linkTo_piece, hx]
    congr 1
    rw [← h.pieces_store tsi]
    apply List.map_congr_left
    intro a ha
    rw [hother a ha]

/-! ### The loops -/

/-- A piece is right at position `p` of a transfer: it is not empty, its bytes are those that
`bus` gives from there on, its VME address follows the position (or stays, without
increment), and it does not cross a block boundary. -/
structure Piece.Fits (bus : ℕ → ℕ) (desc : VmeDma) (vme0 : ℕ) (x : Piece) (p : ℕ) : Prop where
  pos : 0 < x.len
  pci : ∀ j < x.len, x.pci + j = bus (p + j)
  vme : x.vme = if desc.novmeinc = 0 then vme0 + p else vme0
  block : tsi148GetBshift desc ≠ 0 →
    (x.vme + x.len - 1) / 2 ^ tsi148GetBshift desc = x.vme / 2 ^ tsi148GetBshift desc

/-- Where the loop stands with `r` bytes of its segment left: nothing wraps. -/
structure Cursor (desc : VmeDma) (vmeEnd : U32) (dmaEnd : DmaAddr) (vme : U32) (dma : DmaAddr)
    (r : ℕ) : Prop where
  dma : dma.toNat + r = dmaEnd.toNat
  vme : if desc.novmeinc = 0 then vme.toNat + r = vmeEnd.toNat else vme.toNat < vmeEnd.toNat

theorem div_same_block {v l n : ℕ} (hn : 0 < n) (hl : 0 < l) (h : l ≤ n - v % n) :
    (v + l - 1) / n = v / n := by
  have hv := Nat.div_add_mod v n
  have hm := Nat.mod_lt v hn
  have hsum : v + l - 1 = (v % n + l - 1) + n * (v / n) := by omega
  rw [hsum, Nat.add_mul_div_left _ _ hn, Nat.div_eq_of_lt (by omega), Nat.zero_add]

theorem linkLoop_end {env : PoolEnv} {desc : VmeDma} {dsat ddat : U32} {bshift : ℕ} {more : Bool}
    {vmeEnd : U32} {dmaEnd : DmaAddr} (fuel : ℕ) {vme len : U32} {dma : DmaAddr}
    {curr next : Option DmaAddr} {c : Chain} (h : dma.toNat = dmaEnd.toNat) :
    linkLoop env desc dsat ddat bshift more vmeEnd dmaEnd fuel vme dma len curr next c
      = .done next c := by
  cases fuel with
  | zero => rfl
  | succ fuel =>
    unfold linkLoop
    rw [if_neg]
    rintro ⟨-, hlt⟩
    rw [BitVec.lt_def] at hlt
    omega

theorem pieceLen_bounds {bshift : ℕ} (hb : bshift ≤ 11) (vme : U32) {len : U32}
    {dma dmaEnd : DmaAddr} (hlt : dma < dmaEnd) (htop : dmaEnd.toNat + 2 ^ 32 ≤ 2 ^ 64)
    (hlen : bshift = 0 → 0 < len.toNat) (hseg : dmaEnd.toNat - dma.toNat < 2 ^ 32) :
    0 < (pieceLen bshift vme dma dmaEnd len).toNat ∧
      dma.toNat + (pieceLen bshift vme dma dmaEnd len).toNat ≤ dmaEnd.toNat := by
  rw [BitVec.lt_def] at hlt
  have hcut : ∀ l : U32, 0 < l.toNat →
      0 < (if dmaEnd < dma + l.setWidth 64 then (dmaEnd - dma).setWidth 32 else l : U32).toNat ∧
      dma.toNat
        + (if dmaEnd < dma + l.setWidth 64 then (dmaEnd - dma).setWidth 32 else l : U32).toNat
        ≤ dmaEnd.toNat := by
    intro l hpos
    have hl := l.isLt
    have hsum : (dma + l.setWidth 64).toNat = dma.toNat + l.toNat := by
      rw [BitVec.toNat_add, BitVec.toNat_setWidth]
      omega
    have hrest : ((dmaEnd - dma).setWidth 32 : U32).toNat = dmaEnd.toNat - dma.toNat := by
      rw [BitVec.toNat_setWidth, BitVec.toNat_sub]
      omega
    split
    · rw [hrest]
      omega
    · rename_i h
      rw [BitVec.lt_def, hsum] at h
      omega
  unfold pieceLen
  by_cases h0 : bshift = 0
  · simp only [h0, ne_eq, not_true_eq_false, if_false]
    exact hcut len (hlen h0)
  · simp only [h0, ne_eq, not_false_eq_true, if_true]
    refine hcut _ ?_
    have hmod := Nat.mod_lt vme.toNat (Nat.two_pow_pos bshift)
    rw [blockRoom_toNat hb]
    omega

/-- **The loop over one segment comes to an end**: every pass moves on, by the boundaries too, so that
more passes than the segment has bytes change nothing. -/
theorem linkLoop_fuel {env : PoolEnv} {desc : VmeDma} {dsat ddat : U32} {bshift : ℕ}
    (hb : bshift ≤ 11) {more : Bool} {vmeEnd : U32} {dmaEnd : DmaAddr}
    (htop : dmaEnd.toNat + 2 ^ 32 ≤ 2 ^ 64) (fuel extra : ℕ) {vme len : U32} {dma : DmaAddr}
    {curr next : Option DmaAddr} {c : Chain} (hfuel : dmaEnd.toNat - dma.toNat ≤ fuel)
    (hlen : bshift = 0 → 0 < len.toNat) (hseg : dmaEnd.toNat - dma.toNat < 2 ^ 32) :
    linkLoop env desc dsat ddat bshift more vmeEnd dmaEnd (fuel + extra) vme dma len curr next c
      = linkLoop env desc dsat ddat bshift more vmeEnd dmaEnd fuel vme dma len curr next c := by
  induction fuel generalizing vme len dma curr next c with
  | zero =>
    cases extra with
    | zero => rfl
    | succ extra =>
      rw [Nat.zero_add]
      unfold linkLoop
      rw [if_neg]
      rintro ⟨-, hlt⟩
      rw [BitVec.lt_def] at hlt
      omega
  | succ fuel ih =>
    rw [show fuel + 1 + extra = (fuel + extra) + 1 by omega]
    unfold linkLoop
    split
    · rename_i hcond
      obtain ⟨hpos, hle⟩ := pieceLen_bounds hb vme hcond.2 htop hlen hseg
      have hdma : (dma + (pieceLen bshift vme dma dmaEnd len).setWidth 64).toNat
          = dma.toNat + (pieceLen bshift vme dma dmaEnd len).toNat := by
        rw [BitVec.toNat_add, BitVec.toNat_setWidth]
        omega
      split
      · rfl
      · simp only
        split
        · split
          · rfl
          · exact ih (by omega) (fun _ => hpos) (by omega)
        · exact ih (by omega) (fun _ => hpos) (by omega)
    · rfl

theorem Cursor.piece {desc : VmeDma} {vmeEnd vme len : U32} {dmaEnd dma : DmaAddr} {r p vme0 : ℕ}
    {bus : ℕ → ℕ} (hcur : Cursor desc vmeEnd dmaEnd vme dma r) (hpos : 0 < r) (hr32 : r < 2 ^ 32)
    (hend : dmaEnd.toNat ≤ 2 ^ 32) (hlen : tsi148GetBshift desc = 0 → len.toNat = r)
    (hbus : ∀ j < r, dma.toNat + j = bus (p + j))
    (hvme : vme.toNat = if desc.novmeinc = 0 then vme0 + p else vme0) :
    ∃ l, (pieceLen (tsi148GetBshift desc) vme dma dmaEnd len).toNat = l ∧ 0 < l ∧ l ≤ r ∧
      (tsi148GetBshift desc = 0 → l = r) ∧
      Piece.Fits bus desc vme0 ⟨dma.toNat, vme.toNat, l⟩ p := by
  have hl := pieceLen_toNat (tsi148GetBshift_le desc) vme hcur.dma hr32 hend hlen
  have hroom : 0 < 2 ^ tsi148GetBshift desc - vme.toNat % 2 ^ tsi148GetBshift desc := by
    have hmod := Nat.mod_lt vme.toNat (Nat.two_pow_pos (tsi148GetBshift desc))
    omega
  refine ⟨_, rfl, ?_, ?_, ?_, ?_⟩
  · rw [hl]
    split <;> omega
  · rw [hl]
    split <;> omega
  · intro h0
    rw [hl, if_pos h0]
  · refine ⟨?_, ?_, hvme, ?_⟩
    · simp only [hl]
      split <;> omega
    · intro j hj
      refine hbus j ?_
      simp only [hl] at hj
      split at hj <;> omega
    · intro hb
      simp only [hl, if_neg hb]
      exact div_same_block (Nat.two_pow_pos _) (by omega) (by omega)

theorem Cursor.advance {desc : VmeDma} {vmeEnd vme l : U32} {dmaEnd dma : DmaAddr} {r : ℕ}
    (hcur : Cursor desc vmeEnd dmaEnd vme dma r) (hl : l.toNat ≤ r) (hend : dmaEnd.toNat ≤ 2 ^ 32) :
    Cursor desc vmeEnd dmaEnd (if desc.novmeinc = 0 then vme + l else vme)
      (dma + l.setWidth 64) (r - l.toNat) := by
  have hdma := hcur.dma
  have hv := hcur.vme
  have hvend := vmeEnd.isLt
  refine ⟨?_, ?_⟩
  · rw [BitVec.toNat_add, BitVec.toNat_setWidth]
    omega
  · split
    · rename_i h
      rw [if_pos h] at hv
      rw [BitVec.toNat_add]
      omega
    · rename_i h
      rw [if_neg h] at hv
      exact hv

theorem Cursor.rest {desc : VmeDma} {vmeEnd vme vme' : U32} {dmaEnd dma dma' : DmaAddr}
    {r l p vme0 : ℕ} {bus : ℕ → ℕ} (hcur : Cursor desc vmeEnd dmaEnd vme dma r)
    (hcur' : Cursor desc vmeEnd dmaEnd vme' dma' (r - l)) (hl : l ≤ r)
    (hstay : desc.novmeinc ≠ 0 → vme' = vme) (hbus : ∀ j < r, dma.toNat + j = bus (p + j))
    (hvme : vme.toNat = if desc.novmeinc = 0 then vme0 + p else vme0) :
    (∀ j < r - l, dma'.toNat + j = bus (p + l + j))
      ∧ vme'.toNat = if desc.novmeinc = 0 then vme0 + (p + l) else vme0 := by
  refine ⟨fun j hj => ?_, ?_⟩
  · have h1 := hbus (l + j) (by omega)
    have h2 := hcur.dma
    have h3 := hcur'.dma
    rw [Nat.add_assoc, ← h1]
    omega
  · have h2 := hcur.vme
    have h3 := hcur'.vme
    by_cases h0 : desc.novmeinc = 0
    · rw [if_pos h0] at h2 h3 hvme ⊢
      omega
    · rw [hstay h0, hvme, if_neg h0, if_neg h0]

/-- **The loop over one segment.**  Unless an allocation fails, the rest of the segment ends up
as pieces at the end of the chain: with a fresh block behind them when more segments follow,
closed otherwise. -/
theorem linkLoop_spec {env : PoolEnv} (henv : env.Fresh) {desc : VmeDma}
    (hdir : desc.dir = .toDevice ∨ desc.dir = .fromDevice) (dsat ddat : U32) (more : Bool)
    {vmeEnd : U32} {dmaEnd : DmaAddr} (hend : dmaEnd.toNat ≤ 2 ^ 32) {bus : ℕ → ℕ} {vme0 : ℕ}
    {start : DmaAddr} (fuel : ℕ) (next : Option DmaAddr) {vme len : U32} {dma curr : DmaAddr}
    {c : Chain} {as : List DmaAddr} {ps : List Piece} {r p : ℕ} (hfuel : r ≤ fuel) (hpos : 0 < r)
    (hr32 : r < 2 ^ 32) (hcur : Cursor desc vmeEnd dmaEnd vme dma r)
    (hlen : tsi148GetBshift desc = 0 → len.toNat = r)
    (hbus : ∀ j < r, dma.toNat + j = bus (p + j))
    (hvme : vme.toNat = if desc.novmeinc = 0 then vme0 + p else vme0)
    (hbuilt : Built desc.dir c start as ps curr) :
    (∃ c', linkLoop env desc dsat ddat (tsi148GetBshift desc) more vmeEnd dmaEnd fuel vme dma len
      (some curr) next c = .nomem c') ∨
    ∃ new virt c', linkLoop env desc dsat ddat (tsi148GetBshift desc) more vmeEnd dmaEnd fuel vme
        dma len (some curr) next c = .done virt c' ∧
      Tiling Piece.len (Piece.Fits bus desc vme0) p new (p + r) ∧
      ((more = true ∧ ∃ as' curr', virt = some curr' ∧
          Built desc.dir c' start as' (ps ++ new) curr') ∨
        (more = false ∧ Closed desc.dir c' start (ps ++ new))) := by
  induction fuel generalizing vme len dma curr next c as ps r p with
  | zero => omega
  | succ fuel ih =>
    have hcond : vme < vmeEnd ∧ dma < dmaEnd := by
      have h1 := hcur.dma
      have h2 := hcur.vme
      rw [BitVec.lt_def, BitVec.lt_def]
      split at h2 <;> omega
    obtain ⟨l, hl, hlpos, hlr, hl0, hfits⟩ := hcur.piece hpos hr32 hend hlen hbus hvme
    have hcur' := hcur.advance (hl.symm ▸ hlr) hend
    rw [hl] at hcur'
    have hdma : dma.toNat < 2 ^ 32 := by
      have h1 := hcur.dma
      omega
    rw [linkLoop, if_pos hcond]
    simp only
    generalize hpl : pieceLen (tsi148GetBshift desc) vme dma dmaEnd len = pl at hl hcur' ⊢
    generalize hv' : (if desc.novmeinc = 0 then vme + pl else vme) = vme' at hcur' ⊢
    generalize hd' : dma + pl.setWidth 64 = dma' at hcur' ⊢
    have hpiece := tsi148FillDmaDesc_piece hdir hdma vme pl dsat ddat (c.mem curr)
    rw [hl] at hpiece
    have hmark := tsi148FillDmaDesc_isLast hdir vme pl dsat ddat dma (c.mem curr)
    generalize tsi148FillDmaDesc desc vme dma pl dsat ddat (c.mem curr) = tsi at hpiece hmark ⊢
    split
    · -- a further block is needed
      rename_i hmore
      obtain ⟨c', h⟩ | ⟨phys, c', h, halloc, hmem, hlist, hpool⟩ :=
        hwdescInit_cases env (c.store curr tsi)
      · rw [h]
        exact .inl ⟨_, rfl⟩
      · rw [h]
        simp only
        obtain ⟨hnew, h8, hlt⟩ := henv _ _ _ halloc
        have hsound := (hbuilt.sound.store curr tsi).append hnew h8 hlt hlist hpool
        have hgrown := hbuilt.grow hpiece hmem hlist hsound
        by_cases hr' : 0 < r - l
        · have hlen' : tsi148GetBshift desc = 0 → pl.toNat = r - l := by
            intro h0
            have h1 := hl0 h0
            omega
          have hstay : desc.novmeinc ≠ 0 → vme' = vme := fun h0 => by rw [← hv', if_neg h0]
          obtain ⟨hbus', hvme'⟩ := hcur.rest hcur' hlr hstay hbus hvme
          have hnext :=
            ih (some phys) (by omega) hr' (by omega) hcur' hlen' hbus' hvme' hgrown
          obtain ⟨c'', hres⟩ | ⟨new, virt, c'', hres, htile, hout⟩ := hnext
          · exact .inl ⟨c'', hres⟩
          · refine .inr ⟨⟨dma.toNat, vme.toNat, l⟩ :: new, virt, c'', hres, ?_, ?_⟩
            · refine .cons hfits ?_
              rw [show p + r = p + l + (r - l) by omega]
              exact htile
            · simpa only [List.append_assoc, List.singleton_append] using hout
        · have hdone : dma'.toNat = dmaEnd.toNat := by
            have h1 := hcur'.dma
            omega
          have hmore' : more = true := by
            rcases hmore with h1 | h1
            · exact h1
            · rw [BitVec.lt_def] at h1
              omega
          refine .inr ⟨[⟨dma.toNat, vme.toNat, l⟩], some phys, _, linkLoop_end fuel hdone, ?_,
            .inl ⟨hmore', _, phys, rfl, hgrown⟩⟩
          rw [show p + r = p + l by omega]
          exact Tiling.single hfits
    · -- the last piece of the transfer
      rename_i hmore
      rw [not_or, BitVec.lt_def] at hmore
      have hdone : dma'.toNat = dmaEnd.toNat := by
        have h1 := hcur'.dma
        omega
      refine .inr ⟨[⟨dma.toNat, vme.toNat, l⟩], next, _, linkLoop_end fuel hdone, ?_,
        .inr ⟨by simpa using hmore.1, hbuilt.close hmark hpiece⟩⟩
      rw [show p + r = p + l by
        have h1 := hcur'.dma
        omega]
      exact Tiling.single hfits

/-- A segment is right at position `p` of a transfer. -/
structure Segment.Fits (bus : ℕ → ℕ) (seg : Segment) (p : ℕ) : Prop where
  pos : 0 < seg.len.toNat
  low : seg.addr.toNat + seg.len.toNat ≤ 2 ^ 32
  addr : ∀ j < seg.len.toNat, seg.addr.toNat + j = bus (p + j)

/-- The number of bytes a segment carries. -/
def Segment.size (seg : Segment) : ℕ := seg.len.toNat

/-- Where the VME addresses of a transfer up to position `q` end; without increment every segment
has its own end. -/
def VmeEnds (P : ℕ → Prop) (desc : VmeDma) (vme0 q : ℕ) (segs : List Segment) : Prop :=
  if desc.novmeinc = 0 then P (vme0 + q) else ∀ seg ∈ segs, P (vme0 + seg.size)

/-- The VME addresses stay below 4G. -/
def VmeBelow : VmeDma → ℕ → ℕ → List Segment → Prop := VmeEnds (· ≤ 2 ^ 32)

/-- And no segment ends on the last address: `vme_end` is an `unsigned int`, and would be zero. -/
def VmeRoom : VmeDma → ℕ → ℕ → List Segment → Prop := VmeEnds (· < 2 ^ 32)

section FirstSegment

variable {P : ℕ → Prop} {desc : VmeDma} {vme0 p q : ℕ} {vmeAddr : U32} {seg : Segment}
  {segs : List Segment}

theorem VmeEnds.tail (h : VmeEnds P desc vme0 q (seg :: segs)) : VmeEnds P desc vme0 q segs := by
  unfold VmeEnds at h ⊢
  split
  · rename_i h0
    rwa [if_pos h0] at h
  · rename_i h0
    rw [if_neg h0] at h
    exact fun x hx => h x (List.mem_cons_of_mem seg hx)

theorem VmeEnds.head (h : VmeEnds P desc vme0 q (seg :: segs)) (hP : ∀ a b, a ≤ b → P b → P a)
    (hvme : vmeAddr.toNat = if desc.novmeinc = 0 then vme0 + p else vme0) (hq : p + seg.size ≤ q) :
    P (vmeAddr.toNat + seg.len.toNat) := by
  unfold VmeEnds at h
  unfold Segment.size at h hq
  split at h
  · rename_i h0
    rw [if_pos h0] at hvme
    exact hP _ _ (by omega) h
  · rename_i h0
    rw [if_neg h0] at hvme
    rw [hvme]
    exact h seg List.mem_cons_self

theorem VmeEnds.cons (h : VmeEnds P desc vme0 q segs)
    (hvme : vmeAddr.toNat = if desc.novmeinc = 0 then vme0 + p else vme0)
    (hP : P (vmeAddr.toNat + seg.len.toNat)) : VmeEnds P desc vme0 q (seg :: segs) := by
  unfold VmeEnds at h ⊢
  split
  · rename_i h0
    rwa [if_pos h0] at h
  · rename_i h0
    rw [if_neg h0] at h hvme
    intro x hx
    rcases List.mem_cons.mp hx with rfl | hmem
    · rwa [hvme] at hP
    · exact h x hmem

theorem VmeEnds.nil (hvme : vmeAddr.toNat = if desc.novmeinc = 0 then vme0 + p else vme0)
    (hP : P (vmeAddr.toNat + seg.len.toNat)) : VmeEnds P desc vme0 (p + seg.size) [] := by
  unfold VmeEnds
  split
  · rename_i h0
    rwa [hvme, if_pos h0, Nat.add_assoc] at hP
  · exact fun x hx => absurd hx List.not_mem_nil

theorem vmeAddr_next (hvme : vmeAddr.toNat = if desc.novmeinc = 0 then vme0 + p else vme0)
    (hlt : vmeAddr.toNat + seg.len.toNat < 2 ^ 32) :
    (if desc.novmeinc = 0 then vmeAddr + seg.len else vmeAddr).toNat
      = if desc.novmeinc = 0 then vme0 + (p + seg.size) else vme0 := by
  unfold Segment.size
  split
  · rename_i h0
    rw [if_pos h0] at hvme
    rw [BitVec.toNat_add_of_lt hlt]
    omega
  · rename_i h0
    rw [if_neg h0] at hvme
    exact hvme

theorem Segment.Fits.dmaEnd {bus : ℕ → ℕ} (h : seg.Fits bus p) :
    (seg.addr + seg.len.setWidth 64).toNat = seg.addr.toNat + seg.len.toNat := by
  have hlow := h.low
  rw [BitVec.toNat_add, BitVec.toNat_setWidth]
  omega

end FirstSegment

/-- **The loop over the segments.**  Unless an allocation fails, it leaves a closed chain whose
pieces are the segments, cut and in order. -/
theorem chainLoop_spec {env : PoolEnv} (henv : env.Fresh) {desc : VmeDma}
    (hdir : desc.dir = .toDevice ∨ desc.dir = .fromDevice) (dsat ddat : U32) {bus : ℕ → ℕ}
    {vme0 : ℕ} {start : DmaAddr} {segs : List Segment} (hne : segs ≠ []) {curr : DmaAddr}
    {vmeAddr : U32} {c : Chain} {as : List DmaAddr} {ps : List Piece} {p q : ℕ}
    (htile : Tiling Segment.size (Segment.Fits bus) p segs q)
    (hvme : vmeAddr.toNat = if desc.novmeinc = 0 then vme0 + p else vme0)
    (hroom : VmeRoom desc vme0 q segs) (hbuilt : Built desc.dir c start as ps curr) :
    (∃ c', chainLoop env desc dsat ddat (tsi148GetBshift desc) segs (some curr) vmeAddr c
      = .nomem c') ∨
    ∃ virt c' new, chainLoop env desc dsat ddat (tsi148GetBshift desc) segs (some curr) vmeAddr c
        = .done virt c' ∧
      Tiling Piece.len (Piece.Fits bus desc vme0) p new q ∧
      Closed desc.dir c' start (ps ++ new) := by
  induction segs generalizing curr vmeAddr c as ps p with
  | nil => exact absurd rfl hne
  | cons seg segs ih =>
    cases htile with
    | cons hseg hrest =>
      have hlow := hseg.low
      have hpos := hseg.pos
      have hdend := hseg.dmaEnd
      -- the ends of the segment do not wrap on either bus
      have hvroom : vmeAddr.toNat + seg.len.toNat < 2 ^ 32 := hroom.head (fun _ _ => lt_of_le_of_lt)
        hvme hrest.le
      have hvend := BitVec.toNat_add_of_lt hvroom
      have hcur : Cursor desc (vmeAddr + seg.len) (seg.addr + seg.len.setWidth 64) vmeAddr seg.addr
          seg.len.toNat := by
        refine ⟨hdend.symm, ?_⟩
        split <;> omega
      rw [chainLoop, tsi148DmaLinkAdd]
      obtain ⟨c', h⟩ | ⟨new, virt, c', h, htile', hout⟩ :=
        linkLoop_spec henv hdir dsat ddat (!segs.isEmpty) (by omega) seg.len.toNat none
          (le_refl _) hpos seg.len.isLt hcur (fun _ => rfl) hseg.addr hvme hbuilt
      · rw [h]
        exact .inl ⟨_, rfl⟩
      · rw [h]
        simp only
        rcases hout with ⟨hmore, as', curr', rfl, hbuilt'⟩ | ⟨hmore, hclosed⟩
        · have hne' : segs ≠ [] := by
            intro hnil
            rw [hnil] at hmore
            cases hmore
          obtain ⟨c'', hres⟩ | ⟨virt'', c'', new', hres, htile'', hclosed⟩ :=
            ih hne' hrest (vmeAddr_next hvme hvroom) hroom.tail hbuilt'
          · exact .inl ⟨c'', hres⟩
          · refine .inr ⟨virt'', c'', new ++ new', hres, htile'.append htile'', ?_⟩
            rw [← List.append_assoc]
            exact hclosed
        · have hnil : segs = [] := by simpa using hmore
          subst hnil
          cases hrest
          exact .inr ⟨virt, c', new, rfl, htile', hclosed⟩

theorem tsi148DmaSetupChain_spec {env : PoolEnv} (henv : env.Fresh) {desc : VmeDma}
    (hdir : desc.dir = .toDevice ∨ desc.dir = .fromDevice) (dsat ddat : U32) {bus : ℕ → ℕ}
    {vmeAddr : U32} (hvme : getVmeaddr desc = some vmeAddr) {segs : List Segment} (hne : segs ≠ [])
    {q : ℕ} (htile : Tiling Segment.size (Segment.Fits bus) 0 segs q)
    (hroom : VmeRoom desc vmeAddr.toNat q segs) {c : Chain} (hempty : c.hwDescList = []) :
    (tsi148DmaSetupChain env desc dsat ddat segs c).1 = .error .ENOMEM ∨
    ∃ start c' ps, tsi148DmaSetupChain env desc dsat ddat segs c
        = (.ready (start.setWidth 32 &&& dnlalMask), c') ∧
      start.toNat % 8 = 0 ∧ start.toNat < 2 ^ 32 ∧
      Tiling Piece.len (Piece.Fits bus desc vmeAddr.toNat) 0 ps q ∧
      Closed desc.dir c' start ps := by
  have hsound : c.Sound := by
    refine ⟨?_, ?_, ?_, ?_⟩ <;> simp [hempty]
  unfold tsi148DmaSetupChain
  obtain ⟨c', h⟩ | ⟨start, c', h, halloc, hmem, hlist, hpool⟩ := hwdescInit_cases env c
  · rw [h]
    exact .inl rfl
  · obtain ⟨hnew, h8, hlt⟩ := henv _ _ _ halloc
    have hbuilt : Built desc.dir c' start [] [] start := by
      refine ⟨hsound.append hnew h8 hlt hlist hpool, ?_, rfl, rfl⟩
      rw [hlist, hempty]
    rw [h, hvme]
    simp only
    obtain ⟨c'', hres⟩ | ⟨virt, c'', new, hres, htile', hclosed⟩ :=
      chainLoop_spec henv hdir dsat ddat hne htile (by split <;> rfl) hroom hbuilt
    · rw [hres]
      exact .inl rfl
    · rw [hres]
      exact .inr ⟨start, c'', new, rfl, h8, hlt, htile', hclosed⟩

/-! ### A segment that ends at 4G -/

/-- The block at the end of the list is still as the pool gave it, `mem` being the memory that
the blocks are made of. -/
structure Pending (mem : DmaAddr → Tsi148DmaDesc) (c : Chain) (b : DmaAddr) : Prop where
  used : b ∈ c.pool
  last : ∃ as, c.hwDescList = as ++ [b]
  raw : c.mem b = mem b
  unused : ∀ a, a ∉ c.pool → c.mem a = mem a

theorem Pending.link {env : PoolEnv} (henv : env.Fresh) {mem : DmaAddr → Tsi148DmaDesc}
    {c c' : Chain} {curr phys : DmaAddr} (h : Pending mem c curr) {tsi tsi' : Tsi148DmaDesc}
    (halloc : env.alloc (c.store curr tsi).asked (c.store curr tsi).pool = some phys)
    (hmem : c'.mem = (c.store curr tsi).mem)
    (hlist : c'.hwDescList = (c.store curr tsi).hwDescList ++ [phys])
    (hpool : c'.pool = phys :: (c.store curr tsi).pool) :
    Pending mem (c'.store curr tsi') phys := by
  have hnew : phys ∉ c.pool := (henv _ _ _ halloc).1
  have hstore : ∀ a, a ∉ c.pool → (c'.store curr tsi').mem a = mem a := by
    intro a ha
    have hne : a ≠ curr := by
      rintro rfl
      exact ha h.used
    simp only [Chain.store, hmem, update_of_ne hne]
    exact h.unused a ha
  refine ⟨?_, ⟨c.hwDescList, hlist⟩, hstore phys hnew, fun a ha => hstore a fun hin => ?_⟩
  · simp only [Chain.store, hpool, List.mem_cons_self]
  · simp only [Chain.store, hpool] at ha
    exact ha (List.mem_cons_of_mem phys hin)

theorem linkLoop_pending {env : PoolEnv} (henv : env.Fresh) {desc : VmeDma} {dsat ddat : U32}
    {bshift : ℕ} {vmeEnd : U32} {dmaEnd : DmaAddr} {mem : DmaAddr → Tsi148DmaDesc} (fuel : ℕ)
    {vme len : U32} {dma curr : DmaAddr} {next : Option DmaAddr} {c : Chain}
    (h : Pending mem c curr)
    (hstart : next = some curr ∨ 0 < fuel ∧ vme < vmeEnd ∧ dma < dmaEnd) :
    (∃ c', linkLoop env desc dsat ddat bshift true vmeEnd dmaEnd fuel vme dma len (some curr) next c
      = .nomem c') ∨
    ∃ b c', linkLoop env desc dsat ddat bshift true vmeEnd dmaEnd fuel vme dma len (some curr) next
        c = .done (some b) c' ∧ Pending mem c' b := by
  induction fuel generalizing vme len dma curr next c with
  | zero =>
    obtain rfl : next = some curr := hstart.resolve_right fun hpos => absurd hpos.1 (by omega)
    exact .inr ⟨curr, c, rfl, h⟩
  | succ fuel ih =>
    rw [linkLoop]
    by_cases hcond : vme < vmeEnd ∧ dma < dmaEnd
    · rw [if_pos hcond]
      simp only [true_or, if_true]
      generalize tsi148FillDmaDesc desc vme dma _ dsat ddat (c.mem curr) = tsi
      obtain ⟨c', hinit⟩ | ⟨phys, c', hinit, halloc, hmem, hlist, hpool⟩ :=
        hwdescInit_cases env (c.store curr tsi)
      · rw [hinit]
        exact .inl ⟨_, rfl⟩
      · rw [hinit]
        exact ih (h.link henv halloc hmem hlist hpool) (.inl rfl)
    · obtain rfl : next = some curr := hstart.resolve_right fun hpos => hcond hpos.2
      rw [if_neg hcond]
      exact .inr ⟨curr, c, rfl, h⟩

theorem linkLoop_wrapped {env : PoolEnv} {desc : VmeDma} {dsat ddat : U32} {bshift : ℕ}
    {more : Bool} {vmeEnd : U32} {dmaEnd : DmaAddr} (fuel : ℕ) {vme len : U32} {dma : DmaAddr}
    {curr next : Option DmaAddr} {c : Chain} (h : vmeEnd.toNat = 0) :
    linkLoop env desc dsat ddat bshift more vmeEnd dmaEnd fuel vme dma len curr next c
      = .done next c := by
  cases fuel with
  | zero => rfl
  | succ fuel =>
    unfold linkLoop
    rw [if_neg]
    rintro ⟨hlt, -⟩
    rw [BitVec.lt_def] at hlt
    omega

theorem chainLoop_wrapped {env : PoolEnv} (henv : env.Fresh) {desc : VmeDma} (dsat ddat : U32)
    (bshift : ℕ) {bus : ℕ → ℕ} {vme0 : ℕ} {mem : DmaAddr → Tsi148DmaDesc} {segs : List Segment}
    (hne : segs ≠ []) {curr : DmaAddr} {vmeAddr : U32} {c : Chain} {p q : ℕ}
    (htile : Tiling Segment.size (Segment.Fits bus) p segs q)
    (hvme : vmeAddr.toNat = if desc.novmeinc = 0 then vme0 + p else vme0)
    (hbelow : VmeBelow desc vme0 q segs) (hroom : ¬ VmeRoom desc vme0 q segs)
    (h : Pending mem c curr) :
    (∃ c', chainLoop env desc dsat ddat bshift segs (some curr) vmeAddr c = .nomem c') ∨
    (∃ c', chainLoop env desc dsat ddat bshift segs (some curr) vmeAddr c = .bug c') ∨
    ∃ virt c' b, chainLoop env desc dsat ddat bshift segs (some curr) vmeAddr c = .done virt c' ∧
      Pending mem c' b := by
  induction segs generalizing curr vmeAddr c p with
  | nil => exact absurd rfl hne
  | cons seg segs ih =>
    cases htile with
    | cons hseg hrest =>
      have hpos := hseg.pos
      rw [chainLoop, tsi148DmaLinkAdd]
      by_cases hfull : vmeAddr.toNat + seg.len.toNat = 2 ^ 32
      · have hzero : (vmeAddr + seg.len).toNat = 0 := by
          rw [BitVec.toNat_add, hfull, Nat.mod_self]
        rw [linkLoop_wrapped _ hzero]
        cases segs with
        | nil => exact .inr (.inr ⟨none, c, curr, rfl, h⟩)
        | cons seg' segs => exact .inr (.inl ⟨c, rfl⟩)
      · -- this segment is cut as usual, and it is not the last one
        have hle := hbelow.head (fun _ _ => le_trans) hvme hrest.le
        have hlt : vmeAddr.toNat + seg.len.toNat < 2 ^ 32 := by omega
        have hroom' : ¬ VmeRoom desc vme0 q segs := fun htail => hroom (htail.cons hvme hlt)
        have hne' : segs ≠ [] := by
          rintro rfl
          rw [← hrest.eq_of_nil] at hroom'
          exact hroom' (VmeEnds.nil hvme hlt)
        have hvend := BitVec.toNat_add_of_lt hlt
        have hdend := hseg.dmaEnd
        have hstart : 0 < seg.len.toNat ∧ vmeAddr < vmeAddr + seg.len
            ∧ seg.addr < seg.addr + seg.len.setWidth 64 := by
          rw [BitVec.lt_def, BitVec.lt_def]
          omega
        rw [show (!segs.isEmpty) = true by simpa using hne']
        obtain ⟨c', hres⟩ | ⟨b, c', hres, hpend⟩ := linkLoop_pending henv _ h (.inr hstart)
        · rw [hres]
          exact .inl ⟨_, rfl⟩
        · rw [hres]
          exact ih hne' hrest (vmeAddr_next hvme hlt) hbelow.tail hroom' hpend

theorem tsi148DmaSetupChain_wrapped {env : PoolEnv} (henv : env.Fresh) {desc : VmeDma}
    (dsat ddat : U32) {bus : ℕ → ℕ} {vmeAddr : U32} (hvme : getVmeaddr desc = some vmeAddr)
    {segs : List Segment} (hne : segs ≠ []) {q : ℕ}
    (htile : Tiling Segment.size (Segment.Fits bus) 0 segs q)
    (hbelow : VmeBelow desc vmeAddr.toNat q segs) (hroom : ¬ VmeRoom desc vmeAddr.toNat q segs)
    (c : Chain) :
    (tsi148DmaSetupChain env desc dsat ddat segs c).1 = .error .ENOMEM ∨
    (tsi148DmaSetupChain env desc dsat ddat segs c).1 = .bug ∨
    ∃ dnlal c' b, tsi148DmaSetupChain env desc dsat ddat segs c = (.ready dnlal, c') ∧
      Pending c.mem c' b := by
  unfold tsi148DmaSetupChain
  obtain ⟨c', h⟩ | ⟨start, c', h, halloc, hmem, hlist, hpool⟩ := hwdescInit_cases env c
  · rw [h]
    exact .inl rfl
  · have hpend : Pending c.mem c' start := by
      refine ⟨?_, ⟨c.hwDescList, hlist⟩, by rw [hmem], fun a _ => by rw [hmem]⟩
      rw [hpool]
      exact List.mem_cons_self
    rw [h, hvme]
    simp only
    obtain ⟨c'', hres⟩ | ⟨c'', hres⟩ | ⟨virt, c'', b, hres, hend⟩ :=
      chainLoop_wrapped henv dsat ddat (tsi148GetBshift desc) hne htile (by split <;> rfl) hbelow
        hroom hpend
    · rw [hres]
      exact .inl rfl
    · rw [hres]
      exact .inr (.inl rfl)
    · rw [hres]
      exact .inr (.inr ⟨_, c'', b, rfl, hend⟩)

/-! ### What a closed chain transfers -/

/-- The bytes of a piece: the PCI addresses, and the pairs of PCI and VME addresses. -/
def Piece.pciBytes (x : Piece) : List ℕ := (List.range x.len).map fun j => x.pci + j

def Piece.bytes (x : Piece) : List (ℕ × ℕ) := (List.range x.len).map fun j => (x.pci + j, x.vme + j)

/-- The chain behind the link register carries a transfer of `length` bytes, byte `k` of which
is at bus address `byte k`. -/
structure Carries (byte : ℕ → ℕ) (desc : VmeDma) (vme0 length : ℕ) (c : Chain) (dnlal : U32) :
    Prop where
  /-- the chip visits the blocks on the list, in that order, and stops -/
  visited : ∀ n, c.hwDescList.length ≤ n →
    walk Tsi148DmaDesc.next Tsi148DmaDesc.isLast c.mem n (dnlal.setWidth 64) = c.hwDescList
  bytes : c.hwDescList.flatMap (fun a => ((c.mem a).piece desc.dir).pciBytes)
    = (List.range length).map byte
  pairs : desc.novmeinc = 0 → c.hwDescList.flatMap (fun a => ((c.mem a).piece desc.dir).bytes)
    = (List.range length).map fun k => (byte k, vme0 + k)
  fixed : desc.novmeinc ≠ 0 → ∀ a ∈ c.hwDescList, ((c.mem a).piece desc.dir).vme = vme0
  blocks : tsi148GetBshift desc ≠ 0 → ∀ a ∈ c.hwDescList,
    (((c.mem a).piece desc.dir).vme + ((c.mem a).piece desc.dir).len - 1)
        / 2 ^ tsi148GetBshift desc
      = ((c.mem a).piece desc.dir).vme / 2 ^ tsi148GetBshift desc
  links : c.hwDescList.IsChain fun a b => (c.mem a).isLast = false ∧ (c.mem a).next = b
  last : ∃ as a, c.hwDescList = as ++ [a] ∧ (c.mem a).isLast = true

theorem Closed.carries {byte : ℕ → ℕ} {desc : VmeDma} {vme0 length : ℕ} {c : Chain}
    {start : DmaAddr} {ps : List Piece} (h : Closed desc.dir c start ps)
    (htile : Tiling Piece.len (Piece.Fits byte desc vme0) 0 ps length)
    (h8 : start.toNat % 8 = 0) (hlt : start.toNat < 2 ^ 32) :
    Carries byte desc vme0 length c (start.setWidth 32 &&& dnlalMask) := by
  obtain ⟨as, last, hlist, hseg, hlast⟩ := h.chain
  have hflat : ∀ {β : Type} (g : Piece → List β),
      c.hwDescList.flatMap (fun a => g ((c.mem a).piece desc.dir)) = ps.flatMap g := by
    intro β g
    rw [← h.pieces, List.flatMap_map]
  have hmem : ∀ a ∈ c.hwDescList, ∃ p, Piece.Fits byte desc vme0 ((c.mem a).piece desc.dir) p := by
    intro a ha
    have hin : (c.mem a).piece desc.dir ∈ ps := by
      rw [← h.pieces]
      exact List.mem_map_of_mem ha
    obtain ⟨p, -, -, hfit⟩ := htile.mem hin
    exact ⟨p, hfit⟩
  have hstart : ((start.setWidth 32 &&& dnlalMask).setWidth 64 : DmaAddr) = start := by
    apply BitVec.eq_of_toNat_eq
    rw [BitVec.toNat_setWidth, dnlalMask_eq, toNat_and_not_low, BitVec.toNat_setWidth]
    omega
  refine
    { visited := ?_
      bytes := ?_
      pairs := ?_
      fixed := ?_
      blocks := ?_
      links := ?_
      last := ⟨as, last, hlist, hlast⟩ }
  · intro n hn
    rw [hstart, hlist]
    rw [hlist, List.length_append, List.length_singleton] at hn
    exact hseg.walk_eq hlast (by omega)
  · rw [hflat Piece.pciBytes, htile.flatMap_eq (f := byte)]
    · simp
    · intro x p _ _ hfit
      apply List.map_congr_left
      intro j hj
      exact hfit.pci j (List.mem_range.mp hj)
  · intro hinc
    rw [hflat Piece.bytes, htile.flatMap_eq (f := fun k => (byte k, vme0 + k))]
    · simp
    · intro x p _ _ hfit
      apply List.map_congr_left
      intro j hj
      have hv := hfit.vme
      rw [if_pos hinc] at hv
      rw [hfit.pci j (List.mem_range.mp hj), hv, Nat.add_assoc]
  · intro hfix a ha
    obtain ⟨p, hfit⟩ := hmem a ha
    have hv := hfit.vme
    rwa [if_neg hfix] at hv
  · intro hb a ha
    obtain ⟨p, hfit⟩ := hmem a ha
    exact hfit.block hb
  · rw [hlist]
    exact hseg.isChain

end KernelModules.Vmebridge
