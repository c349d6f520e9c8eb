import KernelModules.Vmebridge.DmaChain

/-!
# DMA transfers

`vme_dma.c`: a client takes one of two channels, its buffer is pinned and cut into a
scatterlist, the list is mapped onto the bus, the chip gets a descriptor chain, and after the
transfer everything is given back.

* `sglMapUserPages`, `vmeDmaSetup`, `vmeDoDma` follow the source, with an environment record
  for what the kernel answers;
* `DmaState` carries the resources a transfer takes: semaphore and busy flags, pinned pages,
  scatterlists and descriptor blocks;
* `vmeDmaSetup_exact_iff`: the chain that is started transfers the bytes of the buffer, once each
  and in order, to or from consecutive VME addresses, unless these run up to the last one.
-/

namespace KernelModules.Vmebridge

open Function KernelModules.Lib KernelModules.Lib.Word

/-- Number of a DMA channel (`TSI148_NUM_DMA_CHANNELS` is 2). -/
abbrev ChannelIdx := Fin 2

/-- A page of memory. -/
abbrev Page := ℕ

/-- An entry of a `struct scatterlist`. -/
structure SgEntry where
  page : Page
  offset : ℕ
  length : ℕ
  deriving DecidableEq, Repr

/-- What the kernel answers during a DMA request. -/
structure DmaEnv where
  /-- `dma_disable` before and after the wait on the semaphore -/
  disabled : Bool
  disabledAfter : Bool
  /-- a signal during the wait on the semaphore -/
  interrupted : Bool
  /-- the scatterlist and the page array can be allocated -/
  sglAlloc : Bool
  pagesAlloc : Bool
  /-- `get_user_pages`: an error, or the number of pages pinned -/
  userPages : Except Errno ℕ
  /-- the kernel buffer has pages behind it -/
  kernelPages : Bool
  /-- the `i`-th page of the buffer -/
  page : ℕ → Page
  /-- what a freshly allocated scatterlist happens to hold -/
  uninit : ℕ → SgEntry
  /-- `pci_map_sg`: the segments the list is mapped to -/
  pciMapSg : List SgEntry → List Segment
  pool : PoolEnv
  /-- a signal during the transfer, and the status word read after it -/
  signalled : Bool
  status : U32

/-- The resources of the driver and the registers of the chip that a request touches. -/
structure DmaState where
  sem : ℕ
  busy : ChannelIdx → Bool
  pins : Page → ℤ
  sgls : ℕ
  mem : DmaAddr → Tsi148DmaDesc
  pool : List DmaAddr
  entries : ℕ
  hwDescList : ChannelIdx → List DmaAddr
  dctl : ChannelIdx → U32
  dnlal : ChannelIdx → U32
  /-- the channels started so far -/
  starts : List ChannelIdx

/-! ### Scatterlists -/

/-- The entries after the first page: full pages, and what is left on the last one. -/
def sgTail (page : ℕ → Page) : ℕ → ℕ → ℕ → List SgEntry
  | 0, _, _ => []
  | n + 1, i, length =>
    ⟨page i, 0, if length < 4096 then length else 4096⟩ :: sgTail page n (i + 1) (length - 4096)

/-- The `sg_set_page` calls of `sgl_map_user_pages`. -/
def sgFill (page : ℕ → Page) (nrPages off length : ℕ) : List SgEntry :=
  if nrPages > 1 then
    let len := 4096 - off
    ⟨page 0, off, len⟩ :: sgTail page (nrPages - 1) 1 (length - len)
  else [⟨page 0, off, length⟩]

def DmaState.pin (s : DmaState) (ps : List Page) : DmaState :=
  { s with pins := fun p => s.pins p + ps.count p }

def DmaState.unpin (s : DmaState) (ps : List Page) : DmaState :=
  { s with pins := fun p => s.pins p - ps.count p }

/-- `sgl_map_user_pages`: the value returned, the scatterlist and the state.  Past the
allocation of the page array every path returns the number of pages, also those that found no
pages and left the list as it was allocated. -/
def sglMapUserPages (env : DmaEnv) (nrPages : ℕ) (uaddr : BitVec 64) (length : ℕ) (toUser : Bool)
    (s : DmaState) : Except Errno ℕ × List SgEntry × DmaState :=
  let raw := (List.range nrPages).map env.uninit
  let filled := sgFill env.page nrPages (uaddr.toNat % 4096) length
  if env.pagesAlloc then
    if toUser then
      match env.userPages with
      | .error _ => (.ok nrPages, raw, s)
      | .ok n =>
        let got := (List.range (min n nrPages)).map env.page
        let s := s.pin got
        if n < nrPages then (.ok nrPages, raw, s.unpin got) else (.ok nrPages, filled, s)
    else if env.kernelPages then (.ok nrPages, filled, s)
    else (.ok nrPages, raw, s)
  else (.error .ENOMEM, raw, s)

/-- `sgl_unmap_user_pages`. -/
def sglUnmapUserPages (sgl : List SgEntry) (toUser : Bool) (s : DmaState) : DmaState :=
  if toUser then s.unpin (sgl.map SgEntry.page) else s

/-! ### The chip -/

/-- `TSI148_LCSR_DCTL_DGO`, `_ABT` and `_MOD`. -/
def dctlDgo : U32 := 1#32 <<< 25
def dctlAbt : U32 := 1#32 <<< 27
def dctlMod : U32 := 1#32 <<< 23

/-- Writing the control register; the go bit starts the engine. -/
def DmaState.writeDctl (s : DmaState) (ch : ChannelIdx) (v : U32) : DmaState :=
  { s with
    dctl := update s.dctl ch v
    starts := if v &&& dctlDgo ≠ 0 then ch :: s.starts else s.starts }

/-- The descriptors of a channel and the memory behind them. -/
def DmaState.chain (s : DmaState) (ch : ChannelIdx) : Chain :=
  ⟨s.mem, s.pool, s.entries, s.hwDescList ch, 0⟩

def DmaState.setChain (s : DmaState) (ch : ChannelIdx) (c : Chain) : DmaState :=
  { s with
    mem := c.mem
    pool := c.pool
    entries := c.entries
    hwDescList := update s.hwDescList ch c.hwDescList }

/-- How setting up a transfer ends; `ready` carries the scatterlist of the channel. -/
inductive SetupOut
  | ready (sgl : List SgEntry)
  | error (e : Errno)
  | bug
  deriving DecidableEq

/-- `tsi148_dma_setup`: attributes and control word first, then the chain; the link register
is written last. -/
def tsi148DmaSetup (env : PoolEnv) (desc : VmeDma) (ch : ChannelIdx) (segs : List Segment)
    (s : DmaState) : ChainOut × DmaState :=
  match tsi148DmaSetupSrc desc, tsi148DmaSetupDst desc, tsi148DmaSetupCtl desc.ctrl with
  | some dsat, some ddat, some dctl =>
    let s := s.writeDctl ch (dctl &&& ~~~dctlMod)
    let r := tsi148DmaSetupChain env desc dsat ddat segs (s.chain ch)
    let s := s.setChain ch r.2
    match r.1 with
    | .ready dnlal => (.ready dnlal, { s with dnlal := update s.dnlal ch dnlal })
    | out => (out, s)
  | _, _, _ => (.error .EINVAL, s)

/-- `tsi148_dma_start`. -/
def tsi148DmaStart (ch : ChannelIdx) (s : DmaState) : DmaState :=
  s.writeDctl ch (s.dctl ch ||| dctlDgo)

/-- `tsi148_dma_abort`; the go bit reads back as zero. -/
def tsi148DmaAbort (ch : ChannelIdx) (s : DmaState) : DmaState :=
  s.writeDctl ch (s.dctl ch &&& ~~~dctlDgo ||| dctlAbt)

/-- `tsi148_dma_release`: every transfer is chained. -/
def tsi148DmaRelease (ch : ChannelIdx) (s : DmaState) : DmaState :=
  s.setChain ch (tsi148DmaFreeChain (s.chain ch))

/-! ### Setting up and running a transfer -/

/-- The address of the buffer on the host side. -/
def VmeDma.uaddr (desc : VmeDma) : BitVec 64 :=
  if desc.dir = .toDevice then BitVec.ofNat 64 (join desc.src.addru desc.src.addrl)
  else BitVec.ofNat 64 (join desc.dst.addru desc.dst.addrl)

/-- The number of pages the buffer touches. -/
def VmeDma.nrPages (desc : VmeDma) : ℕ :=
  (desc.uaddr.toNat % 4096 + desc.length.toNat + 4095) / 4096

/-- `vme_dma_setup`. -/
def vmeDmaSetup (env : DmaEnv) (desc : VmeDma) (toUser : Bool) (ch : ChannelIdx) (s : DmaState) :
    SetupOut × DmaState :=
  let uaddr := desc.uaddr
  if uaddr + desc.length.setWidth 64 < uaddr then (.error .EINVAL, s)
  else if env.sglAlloc then
    let s := { s with sgls := s.sgls + 1 }
    match sglMapUserPages env desc.nrPages uaddr desc.length.toNat toUser s with
    | (.error e, _, s) => (.error e, { s with sgls := s.sgls - 1 })
    | (.ok 0, sgl, s) => (.ready sgl, { s with sgls := s.sgls - 1 })
    | (.ok _, sgl, s) =>
      match tsi148DmaSetup env.pool desc ch (env.pciMapSg sgl) s with
      | (.ready _, s) => (.ready sgl, s)
      | (.error e, s) =>
        let s := sglUnmapUserPages sgl toUser s
        (.error e, { s with sgls := s.sgls - 1 })
      | (.bug, s) => (.bug, s)
  else (.error .ENOMEM, s)

/-- `__lock_avail_channel`: the first channel that is not busy. -/
def lockAvailChannel (busy : ChannelIdx → Bool) : Option ChannelIdx :=
  (List.finRange 2).find? fun ch => !busy ch

/-- `vme_dma_channel_release`. -/
def vmeDmaChannelRelease (ch : ChannelIdx) (s : DmaState) : DmaState :=
  { s with busy := update s.busy ch false, sem := s.sem + 1 }

/-- How a request ends: it returns, it waits for a channel, or it runs into a `BUG_ON`. -/
inductive DmaOut
  | returned (rc : Except Errno Unit) (status : Option U32)
  | blocked
  | bug

/-- What `__vme_do_dma` does between `vme_dma_start` and the release of the channel. -/
def transfer (env : DmaEnv) (sgl : List SgEntry) (toUser : Bool) (ch : ChannelIdx)
    (s : DmaState) : DmaState :=
  let s := tsi148DmaStart ch s
  let s := if env.signalled then tsi148DmaAbort ch s else s
  let s := tsi148DmaRelease ch s
  let s := sglUnmapUserPages sgl toUser s
  { s with sgls := s.sgls - 1 }

/-- `__vme_do_dma`, on a 64-bit machine. -/
def vmeDoDma (env : DmaEnv) (desc : VmeDma) (toUser : Bool) (s : DmaState) : DmaOut × DmaState :=
  if desc.length = 0 then (.returned (.error .EINVAL) none, s)
  else if desc.dir ≠ .fromDevice ∧ desc.dir ≠ .toDevice then (.returned (.error .EINVAL) none, s)
  else if env.disabled then (.returned (.error .EBUSY) none, s)
  else if env.interrupted then (.returned (.error .EINTR) none, s)
  else if s.sem = 0 then (.blocked, s)
  else
    let s := { s with sem := s.sem - 1 }
    if env.disabledAfter then (.returned (.error .EBUSY) none, { s with sem := s.sem + 1 })
    else
      match lockAvailChannel s.busy with
      | none => (.returned (.error .EDEADLK) none, s)
      | some ch =>
        let s := { s with busy := update s.busy ch true }
        match vmeDmaSetup env desc toUser ch s with
        | (.error e, s) => (.returned (.error e) none, vmeDmaChannelRelease ch s)
        | (.bug, s) => (.bug, s)
        | (.ready sgl, s) =>
          let s := vmeDmaChannelRelease ch (transfer env sgl toUser ch s)
          (.returned (if env.signalled then .error .ERESTARTSYS else .ok ()) (some env.status), s)

/-! ### From the buffer to bus segments -/

/-- The bus address of byte `k` of a buffer that starts `off` bytes into its first page, when
page `i` of the buffer is at bus address `bus i`. -/
def userByte (bus : ℕ → ℕ) (off k : ℕ) : ℕ := bus ((off + k) / 4096) + (off + k) % 4096

/-- The segment of an entry on a page at bus address `b`. -/
def SgEntry.segment (e : SgEntry) (b : ℕ) : Segment :=
  ⟨BitVec.ofNat 64 (b + e.offset), BitVec.ofNat 32 e.length⟩

/-- The segment is right at position `p`, and no longer than a page. -/
def Segment.OnPage (byte : ℕ → ℕ) (seg : Segment) (p : ℕ) : Prop :=
  seg.Fits byte p ∧ seg.size ≤ 4096

theorem SgEntry.segment_fits (e : SgEntry) (bus : ℕ → ℕ) (off p i : ℕ)
    (hlow : bus i + 4096 ≤ 2 ^ 32) (hpage : off + p = 4096 * i + e.offset) (hpos : 0 < e.length)
    (hend : e.offset + e.length ≤ 4096) :
    (e.segment (bus i)).OnPage (userByte bus off) p ∧ (e.segment (bus i)).size = e.length := by
  have hsize : (e.segment (bus i)).len.toNat = e.length := by
    simp only [SgEntry.segment, BitVec.toNat_ofNat]
    omega
  have haddr : (e.segment (bus i)).addr.toNat = bus i + e.offset := by
    simp only [SgEntry.segment, BitVec.toNat_ofNat]
    omega
  refine ⟨⟨⟨?_, ?_, ?_⟩, ?_⟩, hsize⟩
  · omega
  · omega
  · intro j hj
    have hdiv : (off + (p + j)) / 4096 = i := by omega
    have hmod : (off + (p + j)) % 4096 = e.offset + j := by omega
    rw [userByte, hdiv, hmod, haddr]
    omega
  · rw [Segment.size, hsize]
    omega

theorem sgTail_tiling (bus : ℕ → ℕ) (off : ℕ) (page : ℕ → Page) (n i p length : ℕ)
    (hpage : off + p = 4096 * i) (hlo : 4096 * (n - 1) < length) (hhi : length ≤ 4096 * n)
    (hlow : ∀ k < n, bus (i + k) + 4096 ≤ 2 ^ 32) :
    Tiling Segment.size (Segment.OnPage (userByte bus off)) p
      ((sgTail page n i length).mapIdx fun k e => e.segment (bus (i + k))) (p + length) := by
  induction n generalizing i p length with
  | zero => omega
  | succ n ih =>
    rw [sgTail, List.mapIdx_cons]
    have hi := hlow 0 (by omega)
    rw [Nat.add_zero] at hi ⊢
    by_cases hlast : n = 0
    · subst hlast
      obtain ⟨hfit, hsize⟩ := SgEntry.segment_fits
        ⟨page i, 0, if length < 4096 then length else 4096⟩ bus off p i hi hpage
        (by simp only; split <;> omega) (by simp only; split <;> omega)
      have hlen : (if length < 4096 then length else 4096) = length := by
        split <;> omega
      simp only [hlen] at hfit hsize ⊢
      have hone : Tiling Segment.size _ p _ (p + _) := Tiling.single hfit
      rw [hsize] at hone
      exact hone
    · have hfull : ¬ length < 4096 := by omega
      obtain ⟨hfit, hsize⟩ := SgEntry.segment_fits ⟨page i, 0, 4096⟩ bus off p i hi hpage
        (by simp) (by simp)
      simp only [if_neg hfull]
      refine .cons hfit ?_
      simp only at hsize
      rw [hsize, show p + length = p + 4096 + (length - 4096) by omega]
      have hrest := ih (i + 1) (p + 4096) (length - 4096) (by omega) (by omega)
        (by omega) (fun k hk => by
          have h1 := hlow (k + 1) (by omega)
          rwa [show i + 1 + k = i + (k + 1) by omega])
      simpa only [Nat.add_assoc, Nat.add_comm 1] using hrest

theorem sgFill_tiling (bus : ℕ → ℕ) (page : ℕ → Page) {off length : ℕ} (hoff : off < 4096)
    (hpos : 0 < length) (hlow : ∀ i < (off + length + 4095) / 4096, bus i + 4096 ≤ 2 ^ 32) :
    Tiling Segment.size (Segment.OnPage (userByte bus off)) 0
      ((sgFill page ((off + length + 4095) / 4096) off length).mapIdx fun i e => e.segment (bus i))
      length := by
  unfold sgFill
  split
  · rename_i hmany
    rw [List.mapIdx_cons]
    obtain ⟨hfit, hsize⟩ := SgEntry.segment_fits ⟨page 0, off, 4096 - off⟩ bus off 0 0
      (hlow 0 (by omega)) (by simp only; omega) (by simp only; omega) (by simp only; omega)
    refine .cons hfit ?_
    simp only at hsize
    rw [hsize, Nat.zero_add]
    have hrest := sgTail_tiling bus off page ((off + length + 4095) / 4096 - 1) 1 (4096 - off)
      (length - (4096 - off)) (by omega) (by omega) (by omega)
      (fun k hk => hlow (1 + k) (by omega))
    rw [show 4096 - off + (length - (4096 - off)) = length by omega] at hrest
    simpa only [Nat.add_comm 1] using hrest
  · rename_i hone
    obtain ⟨hfit, hsize⟩ := SgEntry.segment_fits ⟨page 0, off, length⟩ bus off 0 0
      (hlow 0 (by omega)) (by simp only; omega) hpos (by simp only; omega)
    simp only at hsize
    rw [List.mapIdx_cons, List.mapIdx_nil]
    have hone : Tiling Segment.size _ 0 _ (0 + _) := Tiling.single hfit
    rwa [hsize, Nat.zero_add] at hone

/-! ### The chain of an accepted transfer -/

/-- The pages behind the buffer were found: all of them were pinned, or the kernel buffer has
pages. -/
def DmaEnv.FindsPages (env : DmaEnv) (desc : VmeDma) (toUser : Bool) : Prop :=
  if toUser then ∃ n, env.userPages = .ok n ∧ desc.nrPages ≤ n else env.kernelPages = true

/-- The scatterlist of a request. -/
def DmaEnv.sgl (env : DmaEnv) (desc : VmeDma) : List SgEntry :=
  sgFill env.page desc.nrPages (desc.uaddr.toNat % 4096) desc.length.toNat

/-- A request that `__vme_do_dma` accepts, on a bus that maps every scatterlist entry to one
segment: page `i` of the buffer is at bus address `bus i`, and all addresses of both buses are
below 4G. -/
structure Accepted (env : DmaEnv) (desc : VmeDma) (toUser : Bool) (bus : ℕ → ℕ) (vmeAddr : U32) :
    Prop where
  length : desc.length ≠ 0
  dir : desc.dir = .toDevice ∨ desc.dir = .fromDevice
  attributes : (tsi148DmaSetupSrc desc).isSome ∧ (tsi148DmaSetupDst desc).isSome ∧
    (tsi148DmaSetupCtl desc.ctrl).isSome
  noOverflow : ¬ desc.uaddr + desc.length.setWidth 64 < desc.uaddr
  pages : env.FindsPages desc toUser
  mapped : env.pciMapSg (env.sgl desc) = (env.sgl desc).mapIdx fun i e => e.segment (bus i)
  busLow : ∀ i < desc.nrPages, bus i + 4096 ≤ 2 ^ 32
  vmeStart : getVmeaddr desc = some vmeAddr
  vmeLow : VmeBelow desc vmeAddr.toNat desc.length.toNat (env.pciMapSg (env.sgl desc))
  fresh : env.pool.Fresh

theorem VmeDma.nrPages_pos {desc : VmeDma} (h : desc.length ≠ 0) : 0 < desc.nrPages := by
  have hpos : 0 < desc.length.toNat := by
    rw [Nat.pos_iff_ne_zero]
    exact fun h0 => h (BitVec.eq_of_toNat_eq h0)
  unfold VmeDma.nrPages
  omega

theorem sglMapUserPages_filled {env : DmaEnv} {desc : VmeDma} {toUser : Bool} {s : DmaState}
    (hpages : env.FindsPages desc toUser) :
    (sglMapUserPages env desc.nrPages desc.uaddr desc.length.toNat toUser s).1 = .error .ENOMEM ∨
    ∃ s', sglMapUserPages env desc.nrPages desc.uaddr desc.length.toNat toUser s
        = (.ok desc.nrPages, env.sgl desc, s') ∧
      s'.hwDescList = s.hwDescList ∧ s'.mem = s.mem := by
  unfold sglMapUserPages DmaEnv.FindsPages at *
  cases env.pagesAlloc
  · exact .inl rfl
  · right
    cases toUser
    · simp only [Bool.false_eq_true, if_false, if_true] at hpages ⊢
      rw [if_pos hpages]
      exact ⟨s, rfl, rfl, rfl⟩
    · simp only [if_true] at hpages ⊢
      obtain ⟨n, hn, hle⟩ := hpages
      rw [hn]
      simp only [if_neg (show ¬ n < desc.nrPages by omega)]
      exact ⟨_, rfl, rfl, rfl⟩

theorem Accepted.tiling {env : DmaEnv} {desc : VmeDma} {toUser : Bool} {bus : ℕ → ℕ} {vmeAddr : U32}
    (hacc : Accepted env desc toUser bus vmeAddr) :
    Tiling Segment.size (Segment.OnPage (userByte bus (desc.uaddr.toNat % 4096))) 0
      (env.pciMapSg (env.sgl desc)) desc.length.toNat := by
  have hpos : 0 < desc.length.toNat := by
    rw [Nat.pos_iff_ne_zero]
    exact fun h0 => hacc.length (BitVec.eq_of_toNat_eq h0)
  rw [hacc.mapped]
  exact sgFill_tiling bus env.page (Nat.mod_lt desc.uaddr.toNat (by norm_num : 0 < 4096)) hpos
    hacc.busLow

theorem Accepted.segments_ne_nil {env : DmaEnv} {desc : VmeDma} {toUser : Bool} {bus : ℕ → ℕ}
    {vmeAddr : U32} (hacc : Accepted env desc toUser bus vmeAddr) :
    env.pciMapSg (env.sgl desc) ≠ [] := by
  intro hnil
  have htile := hacc.tiling
  rw [hnil] at htile
  exact hacc.length (BitVec.eq_of_toNat_eq htile.eq_of_nil.symm)

theorem vmeDmaSetup_of_mapped {env : DmaEnv} {desc : VmeDma} {toUser : Bool} (ch : ChannelIdx)
    {s t : DmaState} {sgl : List SgEntry} (hlen : desc.length ≠ 0)
    (hover : ¬ desc.uaddr + desc.length.setWidth 64 < desc.uaddr) (hsgl : env.sglAlloc = true)
    (hmap : sglMapUserPages env desc.nrPages desc.uaddr desc.length.toNat toUser
      { s with sgls := s.sgls + 1 } = (.ok desc.nrPages, sgl, t)) :
    vmeDmaSetup env desc toUser ch s =
      match tsi148DmaSetup env.pool desc ch (env.pciMapSg sgl) t with
      | (.ready _, s) => (.ready sgl, s)
      | (.error e, s) =>
        (.error e, { sglUnmapUserPages sgl toUser s with
          sgls := (sglUnmapUserPages sgl toUser s).sgls - 1 })
      | (.bug, s) => (.bug, s) := by
  obtain ⟨n, hn⟩ : ∃ n, desc.nrPages = n + 1 :=
    ⟨desc.nrPages - 1, by have := VmeDma.nrPages_pos hlen; omega⟩
  rw [hn] at hmap
  unfold vmeDmaSetup
  rw [if_neg hover, if_pos hsgl, hn]
  dsimp only
  rewrite [hmap]
  rfl

/-- How setting up a transfer ends, by the outcome of its chain. -/
def SetupEnds (out : ChainOut) (c : Chain) (ch : ChannelIdx) (sgl : List SgEntry)
    (r : SetupOut × DmaState) : Prop :=
  match out with
  | .ready dnlal => r.1 = .ready sgl ∧ r.2.chain ch = { c with asked := 0 } ∧ r.2.dnlal ch = dnlal
  | .error e => r.1 = .error e
  | .bug => r.1 = .bug

theorem vmeDmaSetup_ends {env : DmaEnv} {desc : VmeDma} {toUser : Bool} (hlen : desc.length ≠ 0)
    (hattr : (tsi148DmaSetupSrc desc).isSome ∧ (tsi148DmaSetupDst desc).isSome ∧
      (tsi148DmaSetupCtl desc.ctrl).isSome)
    (hover : ¬ desc.uaddr + desc.length.setWidth 64 < desc.uaddr)
    (hpages : env.FindsPages desc toUser) {ch : ChannelIdx} {s : DmaState}
    (hidle : s.hwDescList ch = [])
    (halloc : (vmeDmaSetup env desc toUser ch s).1 ≠ .error .ENOMEM) :
    ∃ dsat ddat c, c.hwDescList = [] ∧ c.mem = s.mem ∧ ∃ out c',
      tsi148DmaSetupChain env.pool desc dsat ddat (env.pciMapSg (env.sgl desc)) c = (out, c')
        ∧ SetupEnds out c' ch (env.sgl desc) (vmeDmaSetup env desc toUser ch s) := by
  obtain ⟨dsat, hsrc⟩ := Option.isSome_iff_exists.mp hattr.1
  obtain ⟨ddat, hdst⟩ := Option.isSome_iff_exists.mp hattr.2.1
  obtain ⟨dctl, hctl⟩ := Option.isSome_iff_exists.mp hattr.2.2
  have hsgl : env.sglAlloc = true := by
    by_contra hno
    refine halloc ?_
    unfold vmeDmaSetup
    rw [if_neg hover, if_neg hno]
  obtain herr | ⟨t, hmap, hlist, hmem⟩ :=
    sglMapUserPages_filled (s := { s with sgls := s.sgls + 1 }) hpages
  · refine absurd ?_ halloc
    unfold vmeDmaSetup
    rw [if_neg hover, if_pos hsgl]
    dsimp only
    split
    · rename_i h
      rw [h] at herr
      cases herr
      rfl
    · rename_i h
      rw [h] at herr
      cases herr
    · rename_i h
      rw [h] at herr
      cases herr
  · refine ⟨dsat, ddat, (t.writeDctl ch (dctl &&& ~~~dctlMod)).chain ch, ?_, hmem, ?_⟩
    · show t.hwDescList ch = []
      rw [hlist]
      exact hidle
    · rw [vmeDmaSetup_of_mapped ch hlen hover hsgl hmap]
      simp only [tsi148DmaSetup, hsrc, hdst, hctl]
      generalize tsi148DmaSetupChain env.pool desc dsat ddat (env.pciMapSg (env.sgl desc))
        ((t.writeDctl ch (dctl &&& ~~~dctlMod)).chain ch) = r
      obtain ⟨out, c'⟩ := r
      refine ⟨out, c', rfl, ?_⟩
      cases out with
      | ready dnlal =>
        refine ⟨rfl, ?_, ?_⟩
        · simp only [DmaState.chain, DmaState.setChain, update_self]
        · simp only [DmaState.setChain, update_self]
      | error e => exact rfl
      | bug => exact rfl

theorem Accepted.setup {env : DmaEnv} {desc : VmeDma} {toUser : Bool} {bus : ℕ → ℕ} {vmeAddr : U32}
    (hacc : Accepted env desc toUser bus vmeAddr) {ch : ChannelIdx} {s : DmaState}
    (hidle : s.hwDescList ch = [])
    (halloc : (vmeDmaSetup env desc toUser ch s).1 ≠ .error .ENOMEM) :
    ∃ dsat ddat c, c.hwDescList = [] ∧ c.mem = s.mem ∧ ∃ out c',
      tsi148DmaSetupChain env.pool desc dsat ddat (env.pciMapSg (env.sgl desc)) c = (out, c')
        ∧ SetupEnds out c' ch (env.sgl desc) (vmeDmaSetup env desc toUser ch s) :=
  vmeDmaSetup_ends hacc.length hacc.attributes hacc.noOverflow hacc.pages hidle halloc

theorem SetupEnds.carries {env : DmaEnv} (hfresh : env.pool.Fresh) {desc : VmeDma}
    (hdir : desc.dir = .toDevice ∨ desc.dir = .fromDevice) {byte : ℕ → ℕ} {vmeAddr : U32}
    (hvme : getVmeaddr desc = some vmeAddr) {segs : List Segment} (hne : segs ≠ [])
    (hfit : Tiling Segment.size (Segment.Fits byte) 0 segs desc.length.toNat)
    (hroom : VmeRoom desc vmeAddr.toNat desc.length.toNat segs) {dsat ddat : U32} {c c' : Chain}
    (hempty : c.hwDescList = []) {out : ChainOut}
    (hchain : tsi148DmaSetupChain env.pool desc dsat ddat segs c = (out, c')) {ch : ChannelIdx}
    {sgl : List SgEntry} {r : SetupOut × DmaState} (hends : SetupEnds out c' ch sgl r)
    (halloc : r.1 ≠ .error .ENOMEM) :
    ∃ s', r = (.ready sgl, s') ∧
      Carries byte desc vmeAddr.toNat desc.length.toNat (s'.chain ch) (s'.dnlal ch) := by
  obtain herr | ⟨start, c'', ps, hok, h8, hlt, hps, hclosed⟩ :=
    tsi148DmaSetupChain_spec hfresh hdir dsat ddat hvme hne hfit hroom hempty
  · rw [hchain] at herr
    cases herr
    exact absurd hends halloc
  · rw [hchain] at hok
    cases hok
    obtain ⟨hready, hchain', hdnlal⟩ := hends
    refine ⟨_, Prod.ext hready rfl, ?_⟩
    have hcarries := hclosed.carries hps h8 hlt
    rw [hchain', hdnlal]
    exact
      { visited := hcarries.visited
        bytes := hcarries.bytes
        pairs := hcarries.pairs
        fixed := hcarries.fixed
        blocks := hcarries.blocks
        links := hcarries.links
        last := hcarries.last }

/-- The request is set up, and the chain behind the link register carries its bytes. -/
def SetUpExactly (env : DmaEnv) (desc : VmeDma) (toUser : Bool) (bus : ℕ → ℕ) (vmeAddr : U32)
    (ch : ChannelIdx) (s : DmaState) : Prop :=
  ∃ s', vmeDmaSetup env desc toUser ch s = (.ready (env.sgl desc), s') ∧
    Carries (userByte bus (desc.uaddr.toNat % 4096)) desc vmeAddr.toNat desc.length.toNat
      (s'.chain ch) (s'.dnlal ch)

theorem setUpExactly_of_room {env : DmaEnv} {desc : VmeDma} {toUser : Bool} {bus : ℕ → ℕ}
    {vmeAddr : U32} (hacc : Accepted env desc toUser bus vmeAddr) {ch : ChannelIdx} {s : DmaState}
    (hidle : s.hwDescList ch = [])
    (halloc : (vmeDmaSetup env desc toUser ch s).1 ≠ .error .ENOMEM)
    (hroom : VmeRoom desc vmeAddr.toNat desc.length.toNat (env.pciMapSg (env.sgl desc))) :
    SetUpExactly env desc toUser bus vmeAddr ch s := by
  obtain ⟨dsat, ddat, c, hempty, -, out, c', hchain, hends⟩ := hacc.setup hidle halloc
  exact hends.carries hacc.fresh hacc.dir hacc.vmeStart hacc.segments_ne_nil
    (hacc.tiling.imp fun _ _ h => h.1) hroom hempty hchain halloc

theorem not_setUpExactly_of_wrap {env : DmaEnv} {desc : VmeDma} {toUser : Bool} {bus : ℕ → ℕ}
    {vmeAddr : U32} (hacc : Accepted env desc toUser bus vmeAddr) {ch : ChannelIdx} {s : DmaState}
    (hidle : s.hwDescList ch = [])
    (halloc : (vmeDmaSetup env desc toUser ch s).1 ≠ .error .ENOMEM)
    (hroom : ¬ VmeRoom desc vmeAddr.toNat desc.length.toNat (env.pciMapSg (env.sgl desc)))
    (hmem : ∀ a, (s.mem a).isLast = false) : ¬ SetUpExactly env desc toUser bus vmeAddr ch s := by
  rintro ⟨s', hs', hcarries⟩
  obtain ⟨dsat, ddat, c, -, hsame, out, c', hchain, hends⟩ := hacc.setup hidle halloc
  rw [hs'] at hends
  have hfit := hacc.tiling.imp fun _ _ h => h.1
  obtain herr | hbug | ⟨dnlal, c'', b, hok, hpend⟩ :=
    tsi148DmaSetupChain_wrapped hacc.fresh dsat ddat hacc.vmeStart hacc.segments_ne_nil hfit
      hacc.vmeLow hroom c
  · rw [hchain] at herr
    cases herr
    cases hends
  · rw [hchain] at hbug
    cases hbug
    cases hends
  · rw [hchain] at hok
    cases hok
    obtain ⟨-, hchain', -⟩ := hends
    obtain ⟨as, a, hlist, hlast⟩ := hcarries.last
    obtain ⟨bs, hlist'⟩ := hpend.last
    rw [hchain'] at hlist hlast
    rw [hlist'] at hlist
    obtain ⟨-, hab⟩ := List.append_inj' hlist rfl
    cases hab
    rw [show (c'.mem b).isLast = (s.mem b).isLast by rw [hpend.raw, hsame], hmem b] at hlast
    cases hlast

/-- **Exactness of the chain.**  An accepted transfer on an idle channel, with its allocations
granted, is set up so that the chain carries its bytes, whatever the pool's memory holds, exactly
if no segment ends on the last VME address. -/
theorem vmeDmaSetup_exact_iff {env : DmaEnv} {desc : VmeDma} {toUser : Bool} {bus : ℕ → ℕ}
    {vmeAddr : U32} (hacc : Accepted env desc toUser bus vmeAddr) {ch : ChannelIdx} {s : DmaState}
    (hidle : s.hwDescList ch = [])
    (halloc : ∀ mem, (vmeDmaSetup env desc toUser ch { s with mem := mem }).1 ≠ .error .ENOMEM) :
    (∀ mem, SetUpExactly env desc toUser bus vmeAddr ch { s with mem := mem }) ↔
      VmeRoom desc vmeAddr.toNat desc.length.toNat (env.pciMapSg (env.sgl desc)) := by
  constructor
  · intro hexact
    by_contra hroom
    have hnot := not_setUpExactly_of_wrap hacc (s := { s with mem := fun _ => Tsi148DmaDesc.zero })
      hidle (halloc _) hroom fun _ => Tsi148DmaDesc.zero_isLast
    exact hnot (hexact _)
  · exact fun hroom mem => setUpExactly_of_room hacc hidle (halloc mem) hroom

/-- A pool of four blocks that hands out the first one not in use. -/
def smallPool : PoolEnv where
  alloc _ pool := [0x1000#64, 0x1040#64, 0x1080#64, 0x10c0#64].find? fun a => decide (a ∉ pool)
  entry _ := true

theorem smallPool_fresh : smallPool.Fresh := by
  intro k pool a h
  have hnew := List.find?_some h
  have hmem := List.mem_of_find?_eq_some h
  refine ⟨by simpa using hnew, ?_⟩
  fin_cases hmem <;> decide

/-- A kernel that grants everything; page `i` of the buffer is at bus address `0x10000 * i`. -/
def grantDma : DmaEnv where
  disabled := false
  disabledAfter := false
  interrupted := false
  sglAlloc := true
  pagesAlloc := true
  userPages := .ok 2
  kernelPages := true
  page i := 100 + i
  uninit _ := ⟨0, 0, 0⟩
  pciMapSg sgl := sgl.mapIdx fun i e => e.segment (0x10000 * i)
  pool := smallPool
  signalled := false
  status := 0

/-- A block read of 32 bytes across a 256-byte boundary, into a buffer across two pages. -/
def blockRead : VmeDma where
  length := 0x20
  novmeinc := 0
  dir := .fromDevice
  src := ⟨.d32, .a32UserBlt, .sst160, 0, 0, 0x1000f0⟩
  dst := ⟨.d32, .a32UserDataSct, .sst160, 0, 0, 0x400ff8⟩
  ctrl := ⟨0, 0, 0, 0⟩

/-- An idle driver. -/
def DmaState.idle : DmaState where
  sem := 2
  busy _ := false
  pins _ := 0
  sgls := 0
  mem _ := .zero
  pool := []
  entries := 0
  hwDescList _ := []
  dctl _ := 0
  dnlal _ := 0
  starts := []

theorem linkLoop_fuel_blockRead :
    linkLoop smallPool blockRead 0 0 6 false 0x1020 0x2020 (0x20 + 5) 0x1000 0x2000 0x20
      (some 0x1000) none (DmaState.idle.chain 0) =
    linkLoop smallPool blockRead 0 0 6 false 0x1020 0x2020 0x20 0x1000 0x2000 0x20
      (some 0x1000) none (DmaState.idle.chain 0) :=
  linkLoop_fuel (by decide) (by decide) 0x20 5 (by decide) (by decide) (by decide)

theorem blockRead_accepted : Accepted grantDma blockRead true (0x10000 * ·) 0x1000f0 where
  length := by decide
  dir := .inr rfl
  attributes := by decide
  noOverflow := by decide
  pages := ⟨2, rfl, by decide⟩
  mapped := rfl
  busLow i hi := by
    have h2 : i < 2 := hi
    omega
  vmeStart := rfl
  vmeLow := by
    show 0x1000f0 + 0x20 ≤ 2 ^ 32
    decide
  fresh := smallPool_fresh

theorem vmeDmaSetup_exact_iff_blockRead :
    SetUpExactly grantDma blockRead true (0x10000 * ·) 0x1000f0 0 .idle := by
  have hroom : VmeRoom blockRead 0x1000f0 0x20 (grantDma.pciMapSg (grantDma.sgl blockRead)) := by
    show 0x1000f0 + 0x20 < 2 ^ 32
    decide
  have hready : ∀ mem, (vmeDmaSetup grantDma blockRead true 0 { DmaState.idle with mem := mem }).1
      = .ready (grantDma.sgl blockRead) := fun _ => rfl
  refine (vmeDmaSetup_exact_iff (s := .idle) blockRead_accepted rfl fun mem => ?_).mpr hroom _
  rw [hready]
  simp

/-- The same read from the last 32 bytes of the address space. -/
def topRead : VmeDma := { blockRead with src := ⟨.d32, .a32UserBlt, .sst160, 0, 0, 0xffffffe0⟩ }

theorem vmeDmaSetup_not_exact :
    ¬ ∀ env desc toUser bus vmeAddr ch s, Accepted env desc toUser bus vmeAddr →
      s.hwDescList ch = [] → (vmeDmaSetup env desc toUser ch s).1 ≠ .error .ENOMEM →
        SetUpExactly env desc toUser bus vmeAddr ch s := by
  intro h
  have hacc : Accepted grantDma topRead true (0x10000 * ·) 0xffffffe0 :=
    { length := by decide
      dir := .inr rfl
      attributes := by decide
      noOverflow := by decide
      pages := ⟨2, rfl, by decide⟩
      mapped := rfl
      busLow := blockRead_accepted.busLow
      vmeStart := rfl
      vmeLow := by
        show 0xffffffe0 + 0x20 ≤ 2 ^ 32
        decide
      fresh := smallPool_fresh }
  have hroom : ¬ VmeRoom topRead 0xffffffe0 0x20 (grantDma.pciMapSg (grantDma.sgl topRead)) := by
    show ¬ 0xffffffe0 + 0x20 < 2 ^ 32
    decide
  exact not_setUpExactly_of_wrap (s := .idle) hacc rfl (by decide) hroom
    (fun _ => Tsi148DmaDesc.zero_isLast) (h grantDma topRead true _ _ 0 .idle hacc rfl (by decide))

end KernelModules.Vmebridge
