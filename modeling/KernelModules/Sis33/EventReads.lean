import Mathlib.Tactic
import KernelModules.Lib.Tiling
import KernelModules.Sis33.SampleOrder

/-!
# The bus reads of an event

The memory of the eight channels of a SIS3320 is on the bus through eight windows of one page
each, and the page register says which of the eight pages the windows show.  An event of a page or
less is read at its offset in one page, a longer one page by page.

* `PageCache` is the register and the cached copy `sis3320_put_page` compares with;
* `Card.getDataReads` is `sis3320_get_data` with the reads it issues: the page in the register, the
  bus address, the user address and the length; a read that fails ends it;
* `memoryAt` says which byte of which channel a bus address shows, `BusRead.bytes` which bytes a
  read moves and where to;
* `getData_bytes` puts the reads of an event together.
-/

namespace KernelModules.Sis33

open KernelModules.Lib KernelModules.Lib.Word

/-! ### The driver -/

/-- The page register and `priv->curr_page`.  `sis3320_device_init` writes page 0 into both. -/
structure PageCache where
  currPage : BitVec 32
  pageRegister : BitVec 32
  coherent : currPage = pageRegister

/-- `sis3320_put_page`. -/
def PageCache.putPage (c : PageCache) (pageNr : BitVec 32) : PageCache :=
  let pageNr := pageNr &&& adcMemPageMask
  if pageNr = c.currPage then c else ⟨pageNr, pageNr, rfl⟩

/-- `SIS3320_MEM_ADC`. -/
def memAdc (num : ℕ) : BitVec 32 := 0x4000000 + BitVec.ofNat 32 num * 0x800000

/-- `SIS3320_PAGESIZE`. -/
def pagesize : BitVec 32 := 0x800000

/-- A call of `sis33_dma_read_mblt_user`, and the page register at that time. -/
structure BusRead where
  page : BitVec 32
  vmeAddr : BitVec 32
  userAddr : BitVec 64
  size : BitVec 32
  deriving DecidableEq, Repr

/-- The reads of a function, the page register it leaves, and what it returns. -/
structure Readout where
  reads : List BusRead
  cache : PageCache
  ret : ℤ

section
variable (dma : BusRead → ℤ) (card : Card) (vmeBase : BitVec 32) (segment : ℕ) (acq : Acq)
  (channel event : ℕ)

/-- The loop of `sis3320_get_data_bigpage` for `n` more pages from page `i` of the event. -/
def Card.bigpageReads : ℕ → ℕ → PageCache → Readout
  | 0, _, c => ⟨[], c, 0⟩
  | n + 1, i, c =>
    let addr := acq.data + (BitVec.ofNat 32 i * pagesize).setWidth 64
    let c := c.putPage (card.bigPage segment event + BitVec.ofNat 32 i)
    let read : BusRead := ⟨c.pageRegister, vmeBase + memAdc channel, addr, pagesize⟩
    if dma read ≠ 0 then ⟨[read], c, dma read⟩
    else
      let rest := Card.bigpageReads n (i + 1) c
      ⟨read :: rest.reads, rest.cache, rest.ret⟩

/-- `sis3320_get_data_smallpage`; `sis3320_get_offset` has put the page. -/
def Card.smallpageRead (c : PageCache) : Readout :=
  let c := c.putPage (card.smallPage segment event)
  let read : BusRead :=
    ⟨c.pageRegister, vmeBase + memAdc channel + card.eventOffset segment event, acq.data, acq.size⟩
  ⟨[read], c, dma read⟩

/-- `sis3320_get_data`; `dma` is what the reads return. -/
def Card.getDataReads (c : PageCache) : Readout :=
  let samples := (card.segments segment).nrSampPerEv
  if samples ≤ pagesizeSamples then
    card.smallpageRead dma vmeBase segment acq channel event c
  else
    card.bigpageReads dma vmeBase segment acq channel event (samples / pagesizeSamples).toNat 0 c

end

/-! ### What a read moves -/

/-- The channel and the byte of its memory that the bus address `address` shows when `page` is in
the register. -/
def memoryAt (vmeBase page address : BitVec 32) : ℕ × ℕ :=
  let offset := (address - (vmeBase + 0x4000000)).toNat
  (offset / 0x800000, page.toNat * 0x800000 + offset % 0x800000)

/-- The bytes a read moves, in order, each with the user address it is moved to. -/
def BusRead.bytes (vmeBase : BitVec 32) (r : BusRead) : List ((ℕ × ℕ) × BitVec 64) :=
  (List.range r.size.toNat).map fun k =>
    (memoryAt vmeBase r.page (r.vmeAddr + BitVec.ofNat 32 k), r.userAddr + BitVec.ofNat 64 k)

/-- The read lies in the window of a channel. -/
def BusRead.InWindow (vmeBase : BitVec 32) (channel : ℕ) (r : BusRead) : Prop :=
  (r.vmeAddr - (vmeBase + memAdc channel)).toNat + r.size.toNat ≤ 0x800000

/-- Bytes `start`, `start + 1`, … of a channel, each with its place behind `data`. -/
def bytesFrom (channel start : ℕ) (data : BitVec 64) (n : ℕ) : List ((ℕ × ℕ) × BitVec 64) :=
  (List.range n).map fun k => ((channel, start + k), data + BitVec.ofNat 64 k)

/-- The read `r` moves the bytes of `channel` from `start + a` on to the places from `data + a`
on. -/
structure Lands (vmeBase : BitVec 32) (channel start : ℕ) (data : BitVec 64) (r : BusRead)
    (a : ℕ) : Prop where
  window : r.InWindow vmeBase channel
  byte : r.page.toNat * 0x800000 + (r.vmeAddr - (vmeBase + memAdc channel)).toNat = start + a
  user : r.userAddr = data + BitVec.ofNat 64 a

variable {vmeBase : BitVec 32} {channel start : ℕ} {data : BitVec 64} {r : BusRead}

theorem page_end (i : ℕ) : i * 0x800000 + pagesize.toNat = (i + 1) * 0x800000 := by
  rw [show pagesize.toNat = 0x800000 from rfl]
  omega

/-- After `sis3320_put_page` the register is the page, whatever it was before. -/
@[simp] theorem PageCache.putPage_pageRegister (c : PageCache) (pageNr : BitVec 32) :
    (c.putPage pageNr).pageRegister = pageNr &&& adcMemPageMask := by
  unfold PageCache.putPage
  by_cases hp : pageNr &&& adcMemPageMask = c.currPage
  · simp only [if_pos hp]
    rw [← c.coherent, hp]
  · simp only [if_neg hp]

theorem memoryAt_window (page : BitVec 32) (hc : channel < 8) {offset : ℕ}
    (ho : offset < 0x800000) :
    memoryAt vmeBase page (vmeBase + memAdc channel + BitVec.ofNat 32 offset) =
      (channel, page.toNat * 0x800000 + offset) := by
  have hdiff : vmeBase + memAdc channel + BitVec.ofNat 32 offset - (vmeBase + 0x4000000) =
      BitVec.ofNat 32 (channel * 0x800000 + offset) := by
    rw [memAdc, BitVec.ofNat_add, BitVec.ofNat_mul,
      show BitVec.ofNat 32 0x800000 = (0x800000 : BitVec 32) from rfl]
    generalize BitVec.ofNat 32 channel * 0x800000 = window
    bv_omega
  have hmod : (channel * 0x800000 + offset) % 2 ^ 32 = channel * 0x800000 + offset :=
    Nat.mod_eq_of_lt (by omega)
  unfold memoryAt
  rw [hdiff, BitVec.toNat_ofNat, hmod]
  refine Prod.ext ?_ ?_
  · show (channel * 0x800000 + offset) / 0x800000 = channel
    omega
  · show page.toNat * 0x800000 + (channel * 0x800000 + offset) % 0x800000 = _
    omega

namespace Lands

variable {a : ℕ}

theorem bytes (h : Lands vmeBase channel start data r a) (hc : channel < 8) :
    r.bytes vmeBase =
      (List.range r.size.toNat).map fun k =>
        ((channel, start + (a + k)), data + BitVec.ofNat 64 (a + k)) := by
  obtain ⟨hwindow, hbyte, huser⟩ := h
  unfold BusRead.InWindow at hwindow
  unfold BusRead.bytes
  apply List.map_congr_left
  intro k hk
  have hlt := List.mem_range.mp hk
  set offset := (r.vmeAddr - (vmeBase + memAdc channel)).toNat with hoffset
  have haddr : r.vmeAddr + BitVec.ofNat 32 k =
      vmeBase + memAdc channel + BitVec.ofNat 32 (offset + k) := by
    rw [hoffset, BitVec.ofNat_add, BitVec.ofNat_toNat, BitVec.setWidth_eq, ← BitVec.add_assoc,
      BitVec.add_comm (vmeBase + memAdc channel), BitVec.sub_add_cancel]
  rw [haddr, memoryAt_window r.page hc (by omega), huser, BitVec.ofNat_add, BitVec.add_assoc]
  rw [show r.page.toNat * 0x800000 + (offset + k) = start + (a + k) by omega]

end Lands

/-! ### The reads of an event -/

namespace Place

variable {card : Card} {segment nrEvents event : ℕ} {acq : Acq}

theorem bigpage_lands (h : Place card segment nrEvents) (acq : Acq) (he : event < nrEvents)
    (vmeBase : BitVec 32) (channel : ℕ) (hstart : card.eventBase segment event % 0x400000 = 0)
    {i : ℕ} (hi : card.eventBase segment event / 0x400000 + i < 8) :
    Lands vmeBase channel (2 * card.eventBase segment event) acq.data
      ⟨(card.bigPage segment event + BitVec.ofNat 32 i) &&& adcMemPageMask,
        vmeBase + memAdc channel, acq.data + (BitVec.ofNat 32 i * pagesize).setWidth 64, pagesize⟩
      (i * 0x800000) where
  window := by
    simp [BusRead.InWindow, pagesize]
  byte := by
    show ((card.bigPage segment event + BitVec.ofNat 32 i) &&& adcMemPageMask).toNat * 0x800000 +
      (vmeBase + memAdc channel - (vmeBase + memAdc channel)).toNat = _
    rw [h.bigPage_toNat he hi, BitVec.sub_self, BitVec.toNat_zero]
    omega
  user := by
    have hmul : (BitVec.ofNat 32 i * pagesize).setWidth 64 = BitVec.ofNat 64 (i * 0x800000) := by
      apply BitVec.eq_of_toNat_eq
      rw [BitVec.toNat_setWidth, BitVec.toNat_mul, BitVec.toNat_ofNat, BitVec.toNat_ofNat,
        show pagesize.toNat = 0x800000 from rfl, Nat.mod_eq_of_lt (a := i) (by omega),
        Nat.mod_eq_of_lt (a := i * 0x800000) (by omega)]
    show acq.data + (BitVec.ofNat 32 i * pagesize).setWidth 64 = _
    rw [hmul]

theorem bigpageReads_tiling (h : Place card segment nrEvents) (acq : Acq)
    (he : event < nrEvents)
    (dma : BusRead → ℤ) (vmeBase : BitVec 32) (channel : ℕ)
    (hstart : card.eventBase segment event % 0x400000 = 0) (n i : ℕ) (c : PageCache)
    (hpages : (i + n) * 0x400000 ≤ card.eventLen segment) :
    let out := card.bigpageReads dma vmeBase segment acq channel event n i c
    ∃ q, q ≤ (i + n) * 0x800000 ∧ (out.ret = 0 → q = (i + n) * 0x800000) ∧
      Tiling (fun r : BusRead => r.size.toNat)
        (Lands vmeBase channel (2 * card.eventBase segment event) acq.data)
        (i * 0x800000) out.reads q := by
  have hle := h.eventBase_add_le he
  induction n generalizing i c with
  | zero => exact ⟨i * 0x800000, le_refl _, fun _ => rfl, .nil _⟩
  | succ n ih =>
    have hone : (i + 1) * 0x800000 ≤ (i + (n + 1)) * 0x800000 :=
      Nat.mul_le_mul_right _ (by omega)
    have hrest : i + 1 + n = i + (n + 1) := by omega
    obtain ⟨q, hq, hall, ht⟩ := ih (i + 1) (c.putPage
      (card.bigPage segment event + BitVec.ofNat 32 i)) (by rw [hrest]; exact hpages)
    rw [hrest] at hq hall
    have hlands := h.bigpage_lands acq he vmeBase channel hstart
      (show card.eventBase segment event / 0x400000 + i < 8 by omega)
    rw [← page_end] at ht
    simp only [Card.bigpageReads, PageCache.putPage_pageRegister]
    split
    · rename_i hfail
      refine ⟨(i + 1) * 0x800000, hone, fun hret => absurd hret hfail, ?_⟩
      rw [← page_end]
      exact .single hlands
    · exact ⟨q, hq, hall, .cons hlands ht⟩

theorem smallpage_lands (h : Place card segment nrEvents) (he : event < nrEvents)
    (vmeBase : BitVec 32) (channel : ℕ) (hdvd : card.eventLen segment ∣ 0x400000)
    (hsize : acq.size.toNat = 2 * card.eventLen segment) :
    Lands vmeBase channel (2 * card.eventBase segment event) acq.data
      ⟨card.smallPage segment event &&& adcMemPageMask,
        vmeBase + memAdc channel + card.eventOffset segment event, acq.data, acq.size⟩ 0 := by
  have hoffset : vmeBase + memAdc channel + card.eventOffset segment event -
      (vmeBase + memAdc channel) = card.eventOffset segment event := by
    rw [BitVec.add_comm, BitVec.add_sub_cancel]
  refine ⟨?_, ?_, ?_⟩
  · have hle := h.mod_page_add_le event hdvd
    unfold BusRead.InWindow
    rw [hoffset, h.eventOffset_toNat he, hsize]
    omega
  · rw [hoffset, h.smallPage_toNat he, h.eventOffset_toNat he]
    omega
  · exact (BitVec.add_zero _).symm

theorem getDataReads_tiling (h : Place card segment nrEvents) (he : event < nrEvents)
    (dma : BusRead → ℤ) (vmeBase : BitVec 32) (channel : ℕ) (c : PageCache)
    (hsize : acq.size.toNat = 2 * card.eventLen segment) :
    let out := card.getDataReads dma vmeBase segment acq channel event c
    ∃ q, q ≤ 2 * card.eventLen segment ∧ (out.ret = 0 → q = 2 * card.eventLen segment) ∧
      Tiling (fun r : BusRead => r.size.toNat)
        (Lands vmeBase channel (2 * card.eventBase segment event) acq.data) 0 out.reads q := by
  unfold Card.getDataReads
  obtain ⟨hsmall, hdvd⟩ | ⟨hbig, hpages, hmul, hstart⟩ := h.small_or_long event
  · have hone : Tiling (fun r : BusRead => r.size.toNat) _ 0 _ _ :=
      .single (h.smallpage_lands he vmeBase channel hdvd hsize)
    rw [Nat.zero_add, hsize] at hone
    simp only [if_pos hsmall, Card.smallpageRead, PageCache.putPage_pageRegister]
    exact ⟨2 * card.eventLen segment, le_refl _, fun _ => rfl, hone⟩
  · have hcount : (0 + card.eventLen segment / 0x400000) * 0x400000 = card.eventLen segment := by
      rw [Nat.zero_add, Nat.div_mul_cancel hmul]
    have hbytes : (0 + card.eventLen segment / 0x400000) * 0x800000 =
        2 * card.eventLen segment := by
      rw [show 0x800000 = 0x400000 * 2 from rfl, ← Nat.mul_assoc, hcount, Nat.mul_comm]
    obtain ⟨q, hq, hall, ht⟩ := h.bigpageReads_tiling acq he dma vmeBase channel hstart
      (card.eventLen segment / 0x400000) 0 c (by rw [hcount])
    rw [hbytes] at hq hall
    rw [Nat.zero_mul] at ht
    simp only [if_neg hbig, hpages]
    exact ⟨q, hq, hall, ht⟩

end Place

theorem bigpageReads_ret (dma : BusRead → ℤ) (hdma : ∀ r, dma r = 0) (card : Card)
    (vmeBase : BitVec 32) (segment : ℕ) (acq : Acq) (channel event n i : ℕ) (c : PageCache) :
    (card.bigpageReads dma vmeBase segment acq channel event n i c).ret = 0 := by
  induction n generalizing i c with
  | zero => rfl
  | succ n ih =>
    unfold Card.bigpageReads
    simp only [hdma, ne_eq, not_true_eq_false, if_false]
    exact ih _ _

theorem getDataReads_ret (dma : BusRead → ℤ) (hdma : ∀ r, dma r = 0) (card : Card)
    (vmeBase : BitVec 32) (segment : ℕ) (acq : Acq) (channel event : ℕ) (c : PageCache) :
    (card.getDataReads dma vmeBase segment acq channel event c).ret = 0 := by
  unfold Card.getDataReads
  by_cases hsmall : (card.segments segment).nrSampPerEv ≤ pagesizeSamples
  · simp only [if_pos hsmall]
    exact hdma _
  · simp only [if_neg hsmall]
    exact bigpageReads_ret dma hdma card vmeBase segment acq channel event _ 0 c

theorem checkAcqBuffers_size {card : Card} {segment n event : ℕ} {acqs : List Acq} {acq : Acq}
    (h : card.checkAcqBuffers segment acqs n = true) (hn : event < n)
    (hacq : acqs[event]? = some acq) : acq.size.toNat = 2 * card.eventLen segment := by
  have hmem : acq ∈ acqs.take n := by
    apply List.mem_of_getElem? (i := event)
    rw [List.getElem?_take_of_lt hn, hacq]
  have hboth := List.all_eq_true.mp h acq hmem
  simp only [Bool.and_eq_true, decide_eq_true_eq] at hboth
  rw [hboth.2, Card.eventLen, Nat.mul_comm]

/-- **The reads of an event.**  Whatever page the register shows before, the reads move the bytes of
the event in the channel's memory, once each and in order, to consecutive bytes of the buffer; a
read that fails ends the transfer early.  No read leaves the window of the channel. -/
theorem getData_bytes {card : Card} {segment nrEvents event n channel : ℕ} {acqs : List Acq}
    {acq : Acq} (h : Place card segment nrEvents) (he : event < nrEvents) (hc : channel < 8)
    (hacqs : card.checkAcqBuffers segment acqs n = true) (hn : event < n)
    (hacq : acqs[event]? = some acq) (dma : BusRead → ℤ) (vmeBase : BitVec 32) (c : PageCache) :
    let out := card.getDataReads dma vmeBase segment acq channel event c
    let event := bytesFrom channel (2 * card.eventBase segment event) acq.data
      (2 * card.eventLen segment)
    out.reads.flatMap (BusRead.bytes vmeBase) <+: event ∧
      (out.ret = 0 → out.reads.flatMap (BusRead.bytes vmeBase) = event) ∧
      ((∀ r, dma r = 0) → out.ret = 0) ∧
      ∀ r ∈ out.reads, r.InWindow vmeBase channel := by
  obtain ⟨q, hq, hall, ht⟩ := h.getDataReads_tiling he dma vmeBase channel c
    (checkAcqBuffers_size hacqs hn hacq)
  have hbytes : (card.getDataReads dma vmeBase segment acq channel event c).reads.flatMap
      (BusRead.bytes vmeBase) =
      bytesFrom channel (2 * card.eventBase segment event) acq.data q := by
    have hmap := ht.flatMap_eq (f := fun k => ((channel, 2 * card.eventBase segment event + k),
      acq.data + BitVec.ofNat 64 k)) fun r a _ _ hlands => hlands.bytes hc
    rw [hmap, bytesFrom]
    simp only [Nat.sub_zero, Nat.zero_add]
  refine ⟨?_, ?_, ?_, ?_⟩
  · rw [hbytes]
    obtain ⟨rest, hrest⟩ := Nat.exists_eq_add_of_le hq
    rw [hrest, bytesFrom, bytesFrom, List.range_add, List.map_append]
    exact List.prefix_append _ _
  · intro hret
    rw [hbytes, hall hret]
  · intro hdma
    exact getDataReads_ret dma hdma card vmeBase segment acq channel event c
  · intro r hr
    obtain ⟨a, -, -, hlands⟩ := ht.mem hr
    exact hlands.window

/-- The only event of the second segment, read with page 5 in the register. -/
theorem getData_bytes_second :
    let acq : Acq := ⟨0x1000, 128, 0, 0, 0, 0, 0⟩
    let out := twoSegmentCard.getDataReads (fun _ => 0) 0x10000000 1 acq 3 0 ⟨5, 5, rfl⟩
    out.ret = 0 ∧ out.reads.flatMap (BusRead.bytes 0x10000000) =
      bytesFrom 3 (2 * twoSegmentCard.eventBase 1 0) 0x1000 (2 * twoSegmentCard.eventLen 1) := by
  have hacqs : twoSegmentCard.checkAcqBuffers 1 [⟨0x1000, 128, 0, 0, 0, 0, 0⟩] 1 = true := by decide
  obtain ⟨-, hall, hret, -⟩ := getData_bytes twoSegmentCard_place (show 0 < 1 by decide)
    (show 3 < 8 by decide) hacqs (by decide) rfl (fun _ => 0) 0x10000000 ⟨5, 5, rfl⟩
  exact ⟨hret fun _ => rfl, hall (hret fun _ => rfl)⟩

end KernelModules.Sis33
