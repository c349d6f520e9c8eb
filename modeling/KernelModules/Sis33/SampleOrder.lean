import Mathlib.Tactic
import KernelModules.Lib.Ring
import KernelModules.Lib.Word
import KernelModules.Sis33.PageRegister

/-!
# The order of the samples of an event

A SIS3320 writes the samples of an event in groups of four into a ring of its memory, and at the
stop leaves the address of the next sample in the event directory, with a bit that tells whether
the ring has been filled.  The driver turns the directory entry into a number of samples, the first
of them and a correction, and copies the ring to the user; the library swaps the bytes, turns the
ring and drops some samples to align the triggers.

* `Acquired` says what the hardware leaves in memory and directory of a history of samples;
* `Card.processEvent`, `Card.getData` and `Card.fetch` are the driver, `acqSwap`, `acqReorder`,
  `acqCorrection` and `listNormalize` the library;
* `InOrder` says that an acquisition is the valid samples of the history, less the dropped ones;
* an empty event that is to be corrected gets a number of samples below zero, and on a big-endian
  host the samples of a pair stay exchanged; everything else is in order (`normalize_inOrder_iff`).
-/

namespace KernelModules.Sis33

open Function KernelModules.Lib KernelModules.Lib.Word

/-! ### The driver -/

/-- `sis3320_ev_lengths`. -/
def sis3320EvLengths : List (BitVec 32) :=
  [33554432, 16777216, 4194304, 1048576, 262144, 65536, 16384, 4096, 1024, 512, 256, 128, 64]

/-- `EV_DIR_ADDR`. -/
def evDirAddr : BitVec 32 := 0x1ffffff

/-- `EV_DIR_WRAP`. -/
def evDirWrap : BitVec 32 := 0x10000000

/-- `struct sis33_event`. -/
structure Event where
  nrSamples : BitVec 32
  firstSamp : BitVec 32
  trigCorrection : BitVec 32
  deriving DecidableEq, Repr

/-- `sis3320_process_event` for the directory entry `reg`. -/
def Card.processEvent (card : Card) (segment event : ℕ) (reg : BitVec 32) : Event :=
  let nextSample := reg &&& evDirAddr
  let nextSample := nextSample - BitVec.ofNat 32 event * (card.segments segment).nrSampPerEv
  let nextSample := nextSample - card.segmentBase segment
  let correction := nextSample &&& 0x3
  let nextSample := nextSample &&& ~~~0x3
  if reg &&& evDirWrap ≠ 0 then
    ⟨(card.segments segment).nrSampPerEv, nextSample, correction⟩
  else ⟨nextSample, 0, correction⟩

/-- The other sample of the 32-bit word a sample is in. -/
def partner (k : ℕ) : ℕ := if k % 2 = 0 then k + 1 else k - 1

/-- Sample `j` of the window of `SIS3320_PAGESIZE` bytes that shows page `page` of the samples
`mem` of a channel; `beyond` is what lies behind the window. -/
def windowSample (mem beyond : ℕ → BitVec 16) (page : BitVec 32) (j : ℕ) : BitVec 16 :=
  if j < 0x400000 then mem (page.toNat * 0x400000 + j) else beyond j

/-- `sis33_dma_read_mblt_user`.  The words arrive as they are on the bus, with the first of their
two samples in the low half, the bytes in big-endian order. -/
def dmaRead (o : ByteOrder) (mem beyond : ℕ → BitVec 16) (page offset size : BitVec 32) :
    List (BitVec 16) :=
  (List.range (size.toNat / 2)).map fun k =>
    cpuToBe16 o (windowSample mem beyond page (partner (offset.toNat / 2 + k)))

/-- The offset of an event in its page, as `sis3320_get_offset` returns it. -/
def Card.eventOffset (card : Card) (segment event : ℕ) : BitVec 32 :=
  let eventSize := (card.segments segment).nrSampPerEv * 2
  let membase := card.segmentBase segment * 2
  (membase + BitVec.ofNat 32 event * eventSize) &&& 0x7fffff

/-- `sis3320_get_data` into a buffer of the size `sis33_check_acq_buffers` asks for. -/
def Card.getData (o : ByteOrder) (mem beyond : ℕ → BitVec 16) (card : Card)
    (segment event : ℕ) : List (BitVec 16) :=
  let samples := (card.segments segment).nrSampPerEv
  if samples ≤ pagesizeSamples then
    dmaRead o mem beyond (card.smallPage segment event &&& adcMemPageMask)
      (card.eventOffset segment event) (samples * 2)
  else
    (card.eventPages segment event).flatMap fun page =>
      dmaRead o mem beyond (page &&& adcMemPageMask) 0 0x800000

/-- `struct sis33_acq` with the buffer `data` points to. -/
structure AcqBuffer where
  data : List (BitVec 16)
  size : BitVec 32
  nrSamples : BitVec 32
  firstSamp : BitVec 32
  be : BitVec 32
  trigCorrection : BitVec 32
  deriving DecidableEq, Repr

/-- `sis3320_read_event`. -/
def Card.readEvent (o : ByteOrder) (mem beyond : ℕ → BitVec 16) (card : Card)
    (segment : ℕ) (dir : ℕ → BitVec 32) (event : ℕ) : AcqBuffer :=
  let ev := card.processEvent segment event (dir event)
  { data := card.getData o mem beyond segment event
    size := (card.segments segment).nrSampPerEv * 2
    nrSamples := ev.nrSamples
    firstSamp := ev.firstSamp
    be := 1
    trigCorrection := ev.trigCorrection }

/-- `sis3320_fetch` of the first `nrEvents` events of a channel with the directory `dir`. -/
def Card.fetch (o : ByteOrder) (mem beyond : ℕ → BitVec 16) (card : Card) (segment : ℕ)
    (dir : ℕ → BitVec 32) (nrEvents : ℕ) : List AcqBuffer :=
  (List.range nrEvents).map (card.readEvent o mem beyond segment dir)

/-! ### The library -/

/-- `myswap32`. -/
def myswap32 (x : BitVec 32) : BitVec 32 :=
  x >>> 24 ||| (x >>> 8 &&& 0xff00) ||| (x <<< 8 &&& 0xff0000) ||| x <<< 24

/-- `be_to_cpu`. -/
def beToCpu : ByteOrder → BitVec 32 → BitVec 32
  | .little, hwval => myswap32 hwval
  | .big, hwval => hwval

/-- Two half words read as a word. -/
def load32 : ByteOrder → BitVec 16 → BitVec 16 → BitVec 32
  | .little, d0, d1 => d1.setWidth 32 <<< 16 ||| d0.setWidth 32
  | .big, d0, d1 => d0.setWidth 32 <<< 16 ||| d1.setWidth 32

/-- A word written over two half words. -/
def store32 : ByteOrder → BitVec 32 → BitVec 16 × BitVec 16
  | .little, w => (w.setWidth 16, (w >>> 16).setWidth 16)
  | .big, w => ((w >>> 16).setWidth 16, w.setWidth 16)

/-- `acq_swap`. -/
def acqSwap (o : ByteOrder) : List (BitVec 16) → List (BitVec 16)
  | d0 :: d1 :: l =>
    let w := store32 o (beToCpu o (load32 o d0 d1))
    w.1 :: w.2 :: acqSwap o l
  | l => l

/-- One round of `sis33acq_list_swap`. -/
def swapAcq (o : ByteOrder) (acq : AcqBuffer) : AcqBuffer :=
  if acq.be ≠ 0 ∧ o = .little then { acq with data := acqSwap o acq.data, be := 0 } else acq

/-- `sis33acq_list_swap`. -/
def listSwap (o : ByteOrder) (acqs : List AcqBuffer) : List AcqBuffer := acqs.map (swapAcq o)

/-- `sis33acq_reorder`. -/
def acqReorder (acq : AcqBuffer) : Option AcqBuffer :=
  if acq.nrSamples - 1 < acq.firstSamp then none
  else
    let len1 := acq.size.toNat / 2 - acq.firstSamp.toNat
    some { acq with
      data := (acq.data.drop acq.firstSamp.toNat).take len1 ++
        acq.data.take (acq.size.toNat / 2 - len1)
      firstSamp := 0 }

/-- `sis33acq_correction`. -/
def acqCorrection (acq : AcqBuffer) : AcqBuffer :=
  if acq.trigCorrection < 3 then
    let index := acq.trigCorrection + 1
    let len := acq.size.toNat / 2 - index.toNat
    { acq with
      data := (acq.data.drop index.toNat).take len ++ acq.data.drop len
      nrSamples := acq.nrSamples - index }
  else acq

/-- One round of `sis33acq_list_reorder`. -/
def acqAlign (acq : AcqBuffer) : Option AcqBuffer :=
  (if acq.firstSamp ≠ 0 then acqReorder acq else some acq).map acqCorrection

/-- `sis33acq_list_reorder`. -/
def listReorder : List AcqBuffer → Option (List AcqBuffer)
  | [] => some []
  | acq :: acqs => do
    let acq ← acqAlign acq
    let acqs ← listReorder acqs
    some (acq :: acqs)

/-- `sis33acq_list_normalize`. -/
def listNormalize (o : ByteOrder) (acqs : List AcqBuffer) : Option (List AcqBuffer) :=
  listReorder (listSwap o acqs)

/-! ### What an acquisition should be -/

/-- The memory and the directory entry `reg` after an event with the samples `history`, in groups
of four, in a ring of `len` samples at `base`: the last `len` of them are in the ring, and the entry
tells the next place, the position of the stop in the last group, and whether the ring was
filled. -/
structure Acquired (mem : ℕ → BitVec 16) (base len : ℕ) (reg : BitVec 32)
    (history : List (BitVec 16)) : Prop where
  groups : history.length % 4 = 0
  filled : ∀ t, history.length ≤ t + len → ∀ x, history[t]? = some x → mem (base + t % len) = x
  addr : (reg &&& evDirAddr).toNat = base + history.length % len + reg.toNat % 4
  wrap : reg &&& evDirWrap ≠ 0 ↔ len ≤ history.length

/-- The samples of an event that are still in its ring. -/
def validSamples (len : ℕ) (history : List (BitVec 16)) : List (BitVec 16) :=
  history.drop (history.length - len)

/-- How many of them are dropped to align the triggers. -/
def dropped (reg : BitVec 32) : ℕ := if reg.toNat % 4 < 3 then reg.toNat % 4 + 1 else 0

/-- The acquisition is the valid samples of the event, oldest first, less the dropped ones. -/
def InOrder (len : ℕ) (reg : BitVec 32) (history : List (BitVec 16)) (acq : AcqBuffer) : Prop :=
  acq.data.take acq.nrSamples.toNat = (validSamples len history).drop (dropped reg) ∧
    acq.nrSamples.toNat = ((validSamples len history).drop (dropped reg)).length ∧
    acq.nrSamples.toNat ≤ acq.size.toNat / 2

/-! ### Swapping -/

theorem partner_partner (k : ℕ) : partner (partner k) = k := by
  unfold partner
  split
  · rw [if_neg (by omega), Nat.add_sub_cancel]
  · rw [if_pos (by omega)]
    omega

theorem partner_add (k : ℕ) {m : ℕ} (h : m % 2 = 0) : partner (m + k) = m + partner k := by
  unfold partner
  split
  · rw [if_pos (by omega), Nat.add_assoc]
  · rw [if_neg (by omega)]
    omega

theorem partner_lt {k m : ℕ} (hm : m % 2 = 0) (h : k < m) : partner k < m := by
  unfold partner
  split <;> omega

theorem store32_myswap32_load32 (d0 d1 : BitVec 16) :
    store32 .little (myswap32 (load32 .little d0 d1)) = (swab16 d1, swab16 d0) := by
  refine Prod.ext ?_ ?_
  · apply BitVec.eq_of_getLsbD_eq
    intro i hi
    interval_cases i <;> simp [store32, myswap32, load32, swab16]
  · apply BitVec.eq_of_getLsbD_eq
    intro i hi
    interval_cases i <;> simp [store32, myswap32, load32, swab16]

theorem acqSwap_little (f : ℕ → BitVec 16) (m : ℕ) :
    acqSwap .little ((List.range (2 * m)).map f) =
      (List.range (2 * m)).map fun k => swab16 (f (partner k)) := by
  induction m generalizing f with
  | zero => rfl
  | succ m ih =>
    have hrange : ∀ g : ℕ → BitVec 16, (List.range (2 * (m + 1))).map g =
        g 0 :: g 1 :: (List.range (2 * m)).map fun k => g (2 + k) := by
      intro g
      rw [show 2 * (m + 1) = 2 + 2 * m by omega, List.range_add, List.map_append, List.map_map]
      rfl
    have hpair := store32_myswap32_load32 (f 0) (f 1)
    rw [hrange, hrange, acqSwap, beToCpu, hpair, ih]
    simp only [partner_add _ (show 2 % 2 = 0 from rfl)]
    rfl

/-! ### Where an event is -/

/-- A segment of a SIS3320 with `nrEvents` events of a length of the table: the memory of
`ev_lengths[0]` samples is one segment or cut into two, and the events are in it. -/
structure Place (card : Card) (segment nrEvents : ℕ) : Prop where
  lengths : card.evLengths = sis3320EvLengths
  nSegments : card.nSegments = 1 ∨ card.nSegments = 2
  segment_lt : segment < card.nSegments
  length_mem : (card.segments segment).nrSampPerEv ∈ sis3320EvLengths
  fits : (card.segmentBase segment).toNat + nrEvents * (card.segments segment).nrSampPerEv.toNat ≤
    0x2000000

/-- The number of samples of an event. -/
def Card.eventLen (card : Card) (segment : ℕ) : ℕ := (card.segments segment).nrSampPerEv.toNat

/-- The place of the first sample of an event. -/
def Card.eventBase (card : Card) (segment event : ℕ) : ℕ :=
  (card.segmentBase segment).toNat + event * card.eventLen segment

namespace Place

variable {card : Card} {segment nrEvents event : ℕ}

theorem segmentBase_cases (h : Place card segment nrEvents) :
    (card.segmentBase segment).toNat = 0 ∨ (card.segmentBase segment).toNat = 0x1000000 := by
  have hseg := h.segment_lt
  unfold Card.segmentBase
  rw [h.lengths]
  obtain hn | hn := h.nSegments
  · rw [hn] at hseg ⊢
    obtain rfl : segment = 0 := by omega
    exact .inl rfl
  · rw [hn] at hseg ⊢
    obtain rfl | rfl : segment = 0 ∨ segment = 1 := by omega
    · exact .inl rfl
    · exact .inr rfl

theorem eventLen_cases (h : Place card segment nrEvents) :
    (card.eventLen segment ∣ 0x400000 ∧ 4 ∣ card.eventLen segment ∧
      0 < card.eventLen segment) ∨
    card.eventLen segment = 0x1000000 ∨ card.eventLen segment = 0x2000000 := by
  have hmem := h.length_mem
  unfold Card.eventLen
  simp only [sis3320EvLengths, List.mem_cons, List.not_mem_nil, or_false] at hmem
  rcases hmem with hl | hl | hl | hl | hl | hl | hl | hl | hl | hl | hl | hl | hl <;>
    rw [hl] <;> decide

theorem eventLen_pos (h : Place card segment nrEvents) : 0 < card.eventLen segment := by
  obtain ⟨-, -, hpos⟩ | hl | hl := h.eventLen_cases <;> omega

theorem four_dvd_eventLen (h : Place card segment nrEvents) : 4 ∣ card.eventLen segment := by
  obtain ⟨-, hdvd, -⟩ | hl | hl := h.eventLen_cases <;> omega

theorem four_dvd_eventBase (h : Place card segment nrEvents) (event : ℕ) :
    4 ∣ card.eventBase segment event := by
  have hbase : 4 ∣ (card.segmentBase segment).toNat := by
    obtain hb | hb := h.segmentBase_cases <;> omega
  exact Nat.dvd_add hbase (h.four_dvd_eventLen.mul_left event)

theorem eventBase_add_le (h : Place card segment nrEvents) (he : event < nrEvents) :
    card.eventBase segment event + card.eventLen segment ≤ 0x2000000 := by
  have hfits := h.fits
  have hle : (event + 1) * card.eventLen segment ≤ nrEvents * card.eventLen segment :=
    Nat.mul_le_mul_right _ he
  rw [Nat.add_mul, Nat.one_mul] at hle
  unfold Card.eventBase Card.eventLen at *
  omega

theorem event_mul_toNat (h : Place card segment nrEvents) (he : event < nrEvents) :
    (BitVec.ofNat 32 event * (card.segments segment).nrSampPerEv).toNat =
      event * card.eventLen segment := by
  have hle := h.eventBase_add_le he
  have hpos := h.eventLen_pos
  have hevent : event ≤ event * card.eventLen segment := Nat.le_mul_of_pos_right _ hpos
  unfold Card.eventBase at hle
  rw [BitVec.toNat_mul, BitVec.toNat_ofNat, Nat.mod_eq_of_lt (a := event) (by omega)]
  exact Nat.mod_eq_of_lt (show event * card.eventLen segment < _ by omega)

theorem eventBytes_toNat (h : Place card segment nrEvents) (he : event < nrEvents) :
    (card.segmentBase segment * 2 +
      BitVec.ofNat 32 event * ((card.segments segment).nrSampPerEv * 2)).toNat =
      2 * card.eventBase segment event := by
  have hmul := h.event_mul_toNat he
  have hle := h.eventBase_add_le he
  rw [← BitVec.mul_assoc, BitVec.toNat_add, BitVec.toNat_mul, BitVec.toNat_mul, hmul,
    show (2 : BitVec 32).toNat = 2 from rfl]
  unfold Card.eventBase at *
  omega

theorem smallPage_toNat (h : Place card segment nrEvents) (he : event < nrEvents) :
    (card.smallPage segment event &&& adcMemPageMask).toNat =
      card.eventBase segment event / 0x400000 := by
  have hle := h.eventBase_add_le he
  have hpos := h.eventLen_pos
  have hmask := toNat_and_low (card.smallPage segment event) 3 (by omega)
  rw [show BitVec.ofNat 32 (2 ^ 3 - 1) = adcMemPageMask from rfl] at hmask
  rw [hmask, Card.smallPage, BitVec.toNat_ushiftRight, h.eventBytes_toNat he, pageshift,
    Nat.shiftRight_eq_div_pow]
  omega

theorem eventOffset_toNat (h : Place card segment nrEvents) (he : event < nrEvents) :
    (card.eventOffset segment event).toNat = 2 * (card.eventBase segment event % 0x400000) := by
  have hmask := toNat_and_low (card.segmentBase segment * 2 +
    BitVec.ofNat 32 event * ((card.segments segment).nrSampPerEv * 2)) 23 (by omega)
  rw [show BitVec.ofNat 32 (2 ^ 23 - 1) = (0x7fffff : BitVec 32) from rfl,
    h.eventBytes_toNat he] at hmask
  rw [Card.eventOffset, hmask]
  omega

theorem bigPage_toNat (h : Place card segment nrEvents) (he : event < nrEvents) {i : ℕ}
    (hi : card.eventBase segment event / 0x400000 + i < 8) :
    ((card.bigPage segment event + BitVec.ofNat 32 i) &&& adcMemPageMask).toNat =
      card.eventBase segment event / 0x400000 + i := by
  have hmul := h.event_mul_toNat he
  have hle := h.eventBase_add_le he
  have hbytes : ((card.segmentBase segment +
      BitVec.ofNat 32 event * (card.segments segment).nrSampPerEv) * 2).toNat =
      2 * card.eventBase segment event := by
    rw [BitVec.toNat_mul, BitVec.toNat_add, hmul, show (2 : BitVec 32).toNat = 2 from rfl]
    unfold Card.eventBase at *
    omega
  have hmask := toNat_and_low (card.bigPage segment event + BitVec.ofNat 32 i) 3 (by omega)
  rw [show BitVec.ofNat 32 (2 ^ 3 - 1) = adcMemPageMask from rfl] at hmask
  rw [hmask, BitVec.toNat_add, BitVec.toNat_ofNat, Card.bigPage, BitVec.toNat_ushiftRight, hbytes,
    pageshift, Nat.shiftRight_eq_div_pow]
  omega

theorem mod_page_add_le (h : Place card segment nrEvents) (event : ℕ)
    (hdvd : card.eventLen segment ∣ 0x400000) :
    card.eventBase segment event % 0x400000 + card.eventLen segment ≤ 0x400000 := by
  have hbase : card.eventLen segment ∣ (card.segmentBase segment).toNat := by
    obtain hb | hb := h.segmentBase_cases
    · rw [hb]
      exact Nat.dvd_zero _
    · rw [hb]
      exact hdvd.trans (by decide)
  have hstart : card.eventLen segment ∣ card.eventBase segment event :=
    Nat.dvd_add hbase (Nat.dvd_mul_left _ _)
  have hmod : card.eventLen segment ∣ card.eventBase segment event % 0x400000 :=
    (Nat.dvd_mod_iff hdvd).mpr hstart
  have hlt := Nat.mod_lt (card.eventBase segment event) (show 0 < 0x400000 by omega)
  have hrest := Nat.le_of_dvd (by omega) (Nat.dvd_sub hdvd hmod)
  omega

theorem small_or_long (h : Place card segment nrEvents) (event : ℕ) :
    ((card.segments segment).nrSampPerEv ≤ pagesizeSamples ∧ card.eventLen segment ∣ 0x400000) ∨
      (¬ (card.segments segment).nrSampPerEv ≤ pagesizeSamples ∧
        ((card.segments segment).nrSampPerEv / pagesizeSamples).toNat =
          card.eventLen segment / 0x400000 ∧
        0x400000 ∣ card.eventLen segment ∧ card.eventBase segment event % 0x400000 = 0) := by
  have hseg := h.segmentBase_cases
  have hpages : ((card.segments segment).nrSampPerEv / pagesizeSamples).toNat =
      card.eventLen segment / 0x400000 := BitVec.toNat_udiv
  have hlong : card.eventLen segment = 0x1000000 ∨ card.eventLen segment = 0x2000000 →
      ¬ (card.segments segment).nrSampPerEv ≤ pagesizeSamples ∧
        0x400000 ∣ card.eventLen segment ∧ card.eventBase segment event % 0x400000 = 0 := by
    rintro hl
    refine ⟨?_, ?_, ?_⟩
    · intro hle
      have hnat : card.eventLen segment ≤ 0x400000 := hle
      obtain hl | hl := hl <;> omega
    · obtain hl | hl := hl <;> rw [hl] <;> decide
    · unfold Card.eventBase
      obtain hl | hl := hl <;> rw [hl] <;> omega
  obtain ⟨hdvd, -, -⟩ | hl := h.eventLen_cases
  · have hle : card.eventLen segment ≤ 0x400000 := Nat.le_of_dvd (by decide) hdvd
    exact .inl ⟨hle, hdvd⟩
  · obtain ⟨hbig, hmul, haligned⟩ := hlong hl
    exact .inr ⟨hbig, hpages, hmul, haligned⟩

end Place

theorem flatMap_range_map {α : Type*} (g : ℕ → ℕ → α) (n m : ℕ) (hm : 0 < m) :
    (List.range n).flatMap (fun i => (List.range m).map (g i)) =
      (List.range (n * m)).map fun k => g (k / m) (k % m) := by
  induction n with
  | zero => simp
  | succ n ih =>
    rw [List.range_succ, List.flatMap_append, ih, Nat.succ_mul, List.range_add, List.map_append,
      List.map_map, List.flatMap_singleton]
    congr 1
    apply List.map_congr_left
    intro k hk
    rw [List.mem_range] at hk
    rw [comp_apply, Nat.add_comm (n * m), Nat.add_mul_div_right _ _ hm, Nat.div_eq_of_lt hk,
      Nat.zero_add, Nat.add_mul_mod_self_right, Nat.mod_eq_of_lt hk]

section Data

variable {card : Card} {segment nrEvents event : ℕ} {o : ByteOrder} {mem beyond : ℕ → BitVec 16}

theorem getData_eq (h : Place card segment nrEvents) (he : event < nrEvents) :
    card.getData o mem beyond segment event = (List.range (card.eventLen segment)).map fun k =>
      cpuToBe16 o (mem (card.eventBase segment event + partner k)) := by
  have hbase := h.four_dvd_eventBase event
  have hle := h.eventBase_add_le he
  have hlen := h.four_dvd_eventLen
  unfold Card.getData
  obtain ⟨hsmall, hdvd⟩ | ⟨hbig, hpages, hmul, haligned⟩ := h.small_or_long event
  · have hcross := h.mod_page_add_le event hdvd
    have hsize : ((card.segments segment).nrSampPerEv * 2).toNat / 2 = card.eventLen segment := by
      rw [BitVec.toNat_mul, show (2 : BitVec 32).toNat = 2 from rfl]
      unfold Card.eventLen at *
      omega
    rw [if_pos hsmall, dmaRead, hsize]
    apply List.map_congr_left
    intro k hk
    rw [List.mem_range] at hk
    have hpartner := partner_lt (show card.eventLen segment % 2 = 0 by omega) hk
    rw [h.eventOffset_toNat he, Nat.mul_div_cancel_left _ (by omega),
      partner_add k (by omega), windowSample, h.smallPage_toNat he, if_pos (by omega)]
    congr 2
    omega
  · have hread : ∀ i, i < card.eventLen segment / 0x400000 →
        dmaRead o mem beyond ((card.bigPage segment event + BitVec.ofNat 32 i) &&& adcMemPageMask)
          0 0x800000 = (List.range 0x400000).map fun j =>
            cpuToBe16 o (mem (card.eventBase segment event + partner (i * 0x400000 + j))) := by
      intro i hi
      rw [dmaRead, show (0x800000 : BitVec 32).toNat / 2 = 0x400000 from rfl]
      apply List.map_congr_left
      intro j hj
      rw [List.mem_range] at hj
      have hpartner := partner_lt (show 0x400000 % 2 = 0 from rfl) hj
      rw [show (0 : BitVec 32).toNat / 2 = 0 from rfl, Nat.zero_add, windowSample,
        if_pos hpartner, h.bigPage_toNat he (by omega), partner_add j (by omega)]
      congr 2
      omega
    rw [if_neg hbig, Card.eventPages, if_neg hbig, hpages, List.flatMap_map]
    rw [List.flatMap_congr fun i hi => hread i (List.mem_range.mp hi),
      flatMap_range_map (fun i j => cpuToBe16 o
        (mem (card.eventBase segment event + partner (i * 0x400000 + j)))) _ _ (by omega),
      Nat.div_mul_cancel hmul]
    apply List.map_congr_left
    intro k _
    rw [Nat.div_add_mod']

end Data

/-! ### The directory entry -/

section Entry

variable {card : Card} {segment nrEvents event : ℕ} {mem : ℕ → BitVec 16} {reg : BitVec 32}
  {history : List (BitVec 16)}

/-- How many samples of an event are valid. -/
def validCount (len : ℕ) (history : List (BitVec 16)) : ℕ := min history.length len

theorem entryOffset_toNat (h : Place card segment nrEvents) (he : event < nrEvents)
    (ha : Acquired mem (card.eventBase segment event) (card.eventLen segment) reg history) :
    ((reg &&& evDirAddr) - BitVec.ofNat 32 event * (card.segments segment).nrSampPerEv -
      card.segmentBase segment).toNat =
      history.length % card.eventLen segment + reg.toNat % 4 := by
  have hmul := h.event_mul_toNat he
  have haddr := ha.addr
  unfold Card.eventBase at haddr
  have hfirst : ((reg &&& evDirAddr) -
      BitVec.ofNat 32 event * (card.segments segment).nrSampPerEv).toNat =
      (card.segmentBase segment).toNat + history.length % card.eventLen segment +
        reg.toNat % 4 := by
    rw [BitVec.toNat_sub_of_le (by rw [BitVec.le_def, hmul, haddr]; omega), hmul, haddr]
    omega
  rw [BitVec.toNat_sub_of_le (by rw [BitVec.le_def, hfirst]; omega), hfirst]
  omega

theorem processEvent_spec (h : Place card segment nrEvents) (he : event < nrEvents)
    (ha : Acquired mem (card.eventBase segment event) (card.eventLen segment) reg history) :
    (card.processEvent segment event reg).nrSamples.toNat =
        validCount (card.eventLen segment) history ∧
      (card.processEvent segment event reg).firstSamp.toNat =
        (history.length - validCount (card.eventLen segment) history) % card.eventLen segment ∧
      (card.processEvent segment event reg).trigCorrection.toNat = reg.toNat % 4 := by
  have hlast : history.length % card.eventLen segment % 4 = 0 := by
    rw [Nat.mod_mod_of_dvd _ h.four_dvd_eventLen]
    exact ha.groups
  have hoffset := entryOffset_toNat h he ha
  unfold Card.processEvent validCount
  dsimp only
  generalize (reg &&& evDirAddr) - BitVec.ofNat 32 event * (card.segments segment).nrSampPerEv -
    card.segmentBase segment = offset at hoffset
  have hcorr : (offset &&& 0x3).toNat = reg.toNat % 4 := by
    rw [show (0x3 : BitVec 32) = BitVec.ofNat 32 (2 ^ 2 - 1) from rfl,
      toNat_and_low offset 2 (by omega), hoffset]
    omega
  have hnext : (offset &&& ~~~0x3).toNat = history.length % card.eventLen segment := by
    rw [show (0x3 : BitVec 32) = BitVec.ofNat 32 (2 ^ 2 - 1) from rfl,
      toNat_and_not_low offset 2, hoffset]
    omega
  by_cases hwrap : reg &&& evDirWrap ≠ 0
  · have hfull := ha.wrap.mp hwrap
    rw [if_pos hwrap, min_eq_right hfull, ← Nat.mod_eq_sub_mod hfull]
    exact ⟨rfl, hnext, hcorr⟩
  · have hpart : history.length < card.eventLen segment := by
      rw [ha.wrap] at hwrap
      omega
    rw [if_neg hwrap, min_eq_left hpart.le, Nat.sub_self, Nat.zero_mod]
    rw [Nat.mod_eq_of_lt hpart] at hnext
    exact ⟨hnext, rfl, hcorr⟩

end Entry

/-! ### Turning and correcting -/

section Align

variable {acq : AcqBuffer} {cells : ℕ → BitVec 16} {len : ℕ}

theorem acqReorder_window (hdata : acq.data = window cells len 0 len)
    (hsize : acq.size.toNat = 2 * len)
    (hcase : acq.firstSamp = 0 ∨ acq.nrSamples.toNat = len ∧ acq.firstSamp.toNat < len) :
    (if acq.firstSamp ≠ 0 then acqReorder acq else some acq) =
      some { acq with data := window cells len acq.firstSamp.toNat len, firstSamp := 0 } := by
  by_cases hzero : acq.firstSamp = 0
  · rw [if_neg (not_not.mpr hzero), hzero]
    show some acq = some { acq with data := window cells len 0 len, firstSamp := 0 }
    rw [← hdata, ← hzero]
  · obtain ⟨hn, hlt⟩ := hcase.resolve_left hzero
    have hvalid : ¬ acq.nrSamples - 1 < acq.firstSamp := by
      rw [BitVec.lt_def, BitVec.toNat_sub_of_le (by rw [BitVec.le_def, hn]; show 1 ≤ len; omega),
        hn]
      show ¬ len - 1 < _
      omega
    have hlen1 : acq.size.toNat / 2 - acq.firstSamp.toNat = len - acq.firstSamp.toNat := by omega
    have htail : (acq.data.drop acq.firstSamp.toNat).take (len - acq.firstSamp.toNat) =
        acq.data.drop acq.firstSamp.toNat := by
      apply List.take_of_length_le
      rw [List.length_drop, hdata, length_window]
    rw [if_pos hzero, acqReorder, if_neg hvalid, hlen1]
    dsimp only
    rw [htail,
      show acq.size.toNat / 2 - (len - acq.firstSamp.toNat) = acq.firstSamp.toNat by omega, hdata,
      rotate_window cells hlt.le]

/-- The number of samples that the correction drops. -/
def correctionDrop (acq : AcqBuffer) : ℕ :=
  if acq.trigCorrection.toNat < 3 then acq.trigCorrection.toNat + 1 else 0

theorem acqCorrection_spec {first : ℕ} (hdata : acq.data = window cells len first len)
    (hsize : acq.size.toNat = 2 * len) {n : ℕ} (hn : n ≤ len) (hd : correctionDrop acq ≤ n) :
    (acqCorrection acq).data.take (n - correctionDrop acq) =
      window cells len (first + correctionDrop acq) (n - correctionDrop acq) := by
  unfold acqCorrection correctionDrop at *
  by_cases hc : acq.trigCorrection < 3
  · have hc' : acq.trigCorrection.toNat < 3 := hc
    have hindex : (acq.trigCorrection + 1).toNat = acq.trigCorrection.toNat + 1 := by
      rw [BitVec.toNat_add, show (1 : BitVec 32).toNat = 1 from rfl]
      omega
    rw [if_pos hc'] at hd ⊢
    rw [if_pos hc]
    dsimp only
    have hmid : ((window cells len first len).drop (acq.trigCorrection.toNat + 1)).length =
        len - (acq.trigCorrection.toNat + 1) := by
      rw [List.length_drop, length_window]
    rw [hindex, show acq.size.toNat / 2 = len by omega, hdata, List.take_of_length_le hmid.le,
      List.take_append_of_le_length (by omega), drop_window _ _ (by omega),
      take_window _ _ (by omega)]
  · have hc' : ¬ acq.trigCorrection.toNat < 3 := hc
    rw [if_neg hc', if_neg hc, hdata, Nat.sub_zero, Nat.add_zero, take_window _ _ hn]

theorem acqCorrection_nrSamples (acq : AcqBuffer) :
    (acqCorrection acq).nrSamples = acq.nrSamples - BitVec.ofNat 32 (correctionDrop acq) := by
  unfold acqCorrection correctionDrop
  by_cases hc : acq.trigCorrection < 3
  · have hc' : acq.trigCorrection.toNat < 3 := hc
    rw [if_pos hc, if_pos hc']
    congr 1
  · have hc' : ¬ acq.trigCorrection.toNat < 3 := hc
    rw [if_neg hc, if_neg hc']
    exact (BitVec.sub_zero _).symm

theorem acqCorrection_size (acq : AcqBuffer) : (acqCorrection acq).size = acq.size := by
  unfold acqCorrection
  split <;> rfl

end Align

/-! ### End to end -/

/-- Where the library finds the sample of place `k` of the ring after it swapped the bytes. -/
def swapped : ByteOrder → ℕ → ℕ
  | .little, k => k
  | .big, k => partner k

section EndToEnd

variable {card : Card} {segment nrEvents event : ℕ} {o : ByteOrder} {mem beyond : ℕ → BitVec 16}
  {dir : ℕ → BitVec 32} {history : List (BitVec 16)}

theorem swapAcq_data (h : Place card segment nrEvents) (he : event < nrEvents) :
    (swapAcq o (card.readEvent o mem beyond segment dir event)).data =
      window (fun k => mem (card.eventBase segment event + swapped o k)) (card.eventLen segment) 0
        (card.eventLen segment) := by
  have hlen := h.four_dvd_eventLen
  rw [window_of_le _ le_rfl]
  cases o with
  | little =>
    obtain ⟨m, hm⟩ : ∃ m, card.eventLen segment = 2 * m :=
      ⟨card.eventLen segment / 2, by omega⟩
    rw [swapAcq, if_pos ⟨show (1 : BitVec 32) ≠ 0 by decide, rfl⟩]
    show acqSwap .little (card.getData .little mem beyond segment event) = _
    rw [getData_eq h he, hm, acqSwap_little]
    apply List.map_congr_left
    intro k _
    rw [partner_partner]
    exact swab16_swab16 _
  | big =>
    rw [swapAcq, if_neg (by simp)]
    exact getData_eq h he

theorem swapAcq_fields (o : ByteOrder) (acq : AcqBuffer) :
    (swapAcq o acq).size = acq.size ∧ (swapAcq o acq).nrSamples = acq.nrSamples ∧
      (swapAcq o acq).firstSamp = acq.firstSamp ∧
      (swapAcq o acq).trigCorrection = acq.trigCorrection := by
  unfold swapAcq
  split
  · exact ⟨rfl, rfl, rfl, rfl⟩
  · exact ⟨rfl, rfl, rfl, rfl⟩

theorem validSamples_eq {base len : ℕ} {reg : BitVec 32} (ha : Acquired mem base len reg history) :
    validSamples len history = window (fun k => mem (base + k)) len
      (history.length - validCount len history) (validCount len history) := by
  apply List.ext_getElem?
  intro i
  rw [validSamples, List.getElem?_drop]
  unfold validCount
  by_cases hi : i < min history.length len
  · have ht : history.length - len + i < history.length := by omega
    have hmem := ha.filled (history.length - len + i) (by omega) _ (List.getElem?_eq_getElem ht)
    rw [window, List.getElem?_map, List.getElem?_range hi, List.getElem?_eq_getElem ht]
    show some _ = some (mem _)
    rw [← hmem, show history.length - min history.length len = history.length - len by omega]
  · rw [List.getElem?_eq_none (by omega), List.getElem?_eq_none (by rw [length_window]; omega)]

/-- The event has samples or is not corrected, and the host is little-endian or the two samples of
every pair that is returned agree. -/
def Aligned (o : ByteOrder) (len : ℕ) (reg : BitVec 32) (history : List (BitVec 16)) : Prop :=
  (history ≠ [] ∨ reg.toNat % 4 = 3) ∧
    (o = .little ∨ ∀ t, history.length - len + dropped reg ≤ t → t < history.length →
      history[partner t]? = history[t]?)

theorem dropped_le_validCount_iff {base len : ℕ} {reg : BitVec 32} (hlen : 4 ∣ len)
    (hpos : 0 < len) (ha : Acquired mem base len reg history) :
    dropped reg ≤ validCount len history ↔ history ≠ [] ∨ reg.toNat % 4 = 3 := by
  have hgroups := ha.groups
  have hne : history ≠ [] ↔ history.length ≠ 0 := by rw [ne_eq, ne_eq, List.length_eq_zero_iff]
  rw [hne]
  unfold dropped validCount
  split <;> omega

theorem window_swapped_iff {base len : ℕ} {reg : BitVec 32} (hlen : 4 ∣ len) (hpos : 0 < len)
    (ha : Acquired mem base len reg history) (hd : dropped reg ≤ validCount len history) :
    window (fun k => mem (base + swapped o k)) len
        (history.length - validCount len history + dropped reg)
        (validCount len history - dropped reg) =
      window (fun k => mem (base + k)) len
        (history.length - validCount len history + dropped reg)
        (validCount len history - dropped reg) ↔
    (o = .little ∨ ∀ t, history.length - len + dropped reg ≤ t → t < history.length →
      history[partner t]? = history[t]?) := by
  have hgroups := ha.groups
  cases o with
  | little => exact ⟨fun _ => .inl rfl, fun _ => rfl⟩
  | big =>
    -- the partner of a valid sample is valid, as the samples come in groups of four
    have hread : ∀ t, history.length - len ≤ t → t < history.length →
        history[t]? = some (mem (base + t % len)) ∧
          history[partner t]? = some (mem (base + partner (t % len))) := by
      intro t hle hlt
      have hpair : history.length ≤ partner t + len ∧ partner t < history.length := by
        unfold partner
        split <;> omega
      have hmod : partner t % len = partner (t % len) := by
        have hdiv := Nat.div_add_mod t len
        have heven : len * (t / len) % 2 = 0 := by
          obtain ⟨m, rfl⟩ := hlen
          rw [Nat.mul_assoc]
          omega
        have hlt' := partner_lt (show len % 2 = 0 by omega) (Nat.mod_lt t hpos)
        conv_lhs => rw [← hdiv, partner_add _ heven, Nat.mul_add_mod, Nat.mod_eq_of_lt hlt']
      have h1 := ha.filled t (by omega) _ (List.getElem?_eq_getElem hlt)
      have h2 := ha.filled (partner t) hpair.1 _ (List.getElem?_eq_getElem hpair.2)
      rw [hmod] at h2
      rw [List.getElem?_eq_getElem hlt, List.getElem?_eq_getElem hpair.2, h1, h2]
      exact ⟨rfl, rfl⟩
    rw [window_eq_iff]
    constructor
    · intro heq
      refine .inr fun t hle hlt => ?_
      have hi := heq (t - (history.length - validCount len history + dropped reg))
        (by unfold validCount at *; omega)
      rw [show history.length - validCount len history + dropped reg +
        (t - (history.length - validCount len history + dropped reg)) = t by
          unfold validCount at *; omega] at hi
      obtain ⟨h1, h2⟩ := hread t (by omega) hlt
      rw [h1, h2]
      exact congrArg some hi
    · intro hpairs i hi
      have hpairs := hpairs.resolve_left (by simp)
      have hle : history.length - len + dropped reg ≤
          history.length - validCount len history + dropped reg + i := by
        unfold validCount
        omega
      have hlt : history.length - validCount len history + dropped reg + i < history.length := by
        unfold validCount at *
        omega
      obtain ⟨h1, h2⟩ := hread _ (by omega) hlt
      have heq := hpairs _ hle hlt
      rw [h1, h2] at heq
      exact Option.some.inj heq

theorem acqCorrection_inOrder_iff {acq : AcqBuffer} {base len : ℕ} {reg : BitVec 32}
    (hlen : 4 ∣ len) (hpos : 0 < len) (ha : Acquired mem base len reg history)
    (hdata : acq.data = window (fun k => mem (base + swapped o k)) len
      (history.length - validCount len history) len)
    (hsize : acq.size.toNat = 2 * len) (hnr : acq.nrSamples.toNat = validCount len history)
    (htrig : acq.trigCorrection.toNat = reg.toNat % 4) :
    InOrder len reg history (acqCorrection acq) ↔ Aligned o len reg history := by
  have hdrop : correctionDrop acq = dropped reg := by
    rw [correctionDrop, htrig, dropped]
  have hdle : dropped reg ≤ 3 := by
    unfold dropped
    split <;> omega
  have hcount : validCount len history ≤ len := min_le_right _ _
  have hvalid := validSamples_eq ha
  have hnonempty := dropped_le_validCount_iff hlen hpos ha
  have hlength : ((validSamples len history).drop (dropped reg)).length =
      validCount len history - dropped reg := by
    rw [List.length_drop, hvalid, length_window]
  have hcounted := acqCorrection_nrSamples acq
  rw [hdrop] at hcounted
  unfold InOrder Aligned
  rw [← hnonempty, hlength, acqCorrection_size, hsize]
  by_cases hd : dropped reg ≤ validCount len history
  · have hn : (acqCorrection acq).nrSamples.toNat = validCount len history - dropped reg := by
      have hofNat : (BitVec.ofNat 32 (dropped reg)).toNat = dropped reg := by
        rw [BitVec.toNat_ofNat]
        omega
      rw [hcounted, BitVec.toNat_sub_of_le (by rw [BitVec.le_def, hofNat, hnr]; exact hd), hofNat,
        hnr]
    have htake := acqCorrection_spec hdata hsize hcount (by rw [hdrop]; exact hd)
    rw [hdrop] at htake
    rw [hn, htake, hvalid, drop_window _ _ hd, window_swapped_iff hlen hpos ha hd]
    constructor
    · rintro ⟨heq, -, -⟩
      exact ⟨hd, heq⟩
    · rintro ⟨-, heq⟩
      exact ⟨heq, rfl, by omega⟩
  · -- an empty event: the count wraps below zero
    have hn : (acqCorrection acq).nrSamples.toNat ≠ validCount len history - dropped reg := by
      have hlt := acq.nrSamples.isLt
      rw [hcounted, BitVec.toNat_sub, hnr, BitVec.toNat_ofNat]
      omega
    constructor
    · rintro ⟨-, hcount', -⟩
      exact absurd hcount' hn
    · rintro ⟨hle, -⟩
      exact absurd hle hd

theorem acqAlign_inOrder_iff (o : ByteOrder) (beyond : ℕ → BitVec 16)
    (h : Place card segment nrEvents) (he : event < nrEvents)
    (ha : Acquired mem (card.eventBase segment event) (card.eventLen segment) (dir event)
      history) :
    ∃ acq, acqAlign (swapAcq o (card.readEvent o mem beyond segment dir event)) = some acq ∧
      (InOrder (card.eventLen segment) (dir event) history acq ↔
        Aligned o (card.eventLen segment) (dir event) history) := by
  have hpos := h.eventLen_pos
  have hle := h.eventBase_add_le he
  have hlen := h.four_dvd_eventLen
  obtain ⟨hnr, hfirst, htrig⟩ := processEvent_spec h he ha
  obtain ⟨hsize', hnr', hfirst', htrig'⟩ :=
    swapAcq_fields o (card.readEvent o mem beyond segment dir event)
  have hdata : (swapAcq o (card.readEvent o mem beyond segment dir event)).data = _ :=
    swapAcq_data h he
  generalize swapAcq o (card.readEvent o mem beyond segment dir event) = acq at *
  have hsize : acq.size.toNat = 2 * card.eventLen segment := by
    rw [hsize']
    show ((card.segments segment).nrSampPerEv * 2).toNat = _
    rw [BitVec.toNat_mul, show (2 : BitVec 32).toNat = 2 from rfl]
    unfold Card.eventLen at *
    omega
  have hcount : acq.nrSamples.toNat = validCount (card.eventLen segment) history := by
    rw [hnr']
    exact hnr
  have hplace : acq.firstSamp.toNat = (history.length -
      validCount (card.eventLen segment) history) % card.eventLen segment := by
    rw [hfirst']
    exact hfirst
  have hcase : acq.firstSamp = 0 ∨
      acq.nrSamples.toNat = card.eventLen segment ∧ acq.firstSamp.toNat < card.eventLen segment := by
    by_cases hfull : card.eventLen segment ≤ history.length
    · refine .inr ⟨?_, by rw [hplace]; exact Nat.mod_lt _ hpos⟩
      rw [hcount, validCount, min_eq_right hfull]
    · refine .inl (BitVec.eq_of_toNat_eq ?_)
      rw [hplace, validCount, min_eq_left (by omega), Nat.sub_self, Nat.zero_mod]
      rfl
  refine ⟨_, by rw [acqAlign, acqReorder_window hdata hsize hcase]; rfl, ?_⟩
  have htrigger : acq.trigCorrection.toNat = (dir event).toNat % 4 := by
    rw [htrig']
    exact htrig
  refine acqCorrection_inOrder_iff hlen hpos ha ?_ hsize hcount htrigger
  dsimp only
  rw [hplace, window_mod]

theorem listReorder_eq {acqs : List AcqBuffer} {g : AcqBuffer → AcqBuffer}
    (h : ∀ acq ∈ acqs, acqAlign acq = some (g acq)) : listReorder acqs = some (acqs.map g) := by
  induction acqs with
  | nil => rfl
  | cons acq acqs ih =>
    rw [listReorder, h acq List.mem_cons_self, ih fun a ha => h a (List.mem_cons_of_mem _ ha)]
    rfl

/-- **Sample order, end to end.**  For every segment, event length, directory and contents of the
memory, what the library returns of each event is its valid samples in order, less the dropped
ones, exactly if the event is not empty (or not corrected) and the host is little-endian (or the
samples of each pair agree). -/
theorem normalize_inOrder_iff (o : ByteOrder) (beyond : ℕ → BitVec 16) (dir : ℕ → BitVec 32)
    (histories : ℕ → List (BitVec 16)) (h : Place card segment nrEvents)
    (ha : ∀ event, event < nrEvents → Acquired mem (card.eventBase segment event)
      (card.eventLen segment) (dir event) (histories event)) :
    ∃ acqs, listNormalize o (card.fetch o mem beyond segment dir nrEvents) = some acqs ∧
      acqs.length = nrEvents ∧
      ∀ event acq, acqs[event]? = some acq →
        (InOrder (card.eventLen segment) (dir event) (histories event) acq ↔
          Aligned o (card.eventLen segment) (dir event) (histories event)) := by
  have hsome : ∀ acq ∈ listSwap o (card.fetch o mem beyond segment dir nrEvents),
      acqAlign acq = some ((acqAlign acq).getD acq) := by
    intro acq hacq
    simp only [listSwap, Card.fetch, List.map_map, List.mem_map, List.mem_range,
      comp_apply] at hacq
    obtain ⟨event, he, rfl⟩ := hacq
    obtain ⟨acq, hacq, -⟩ := acqAlign_inOrder_iff o beyond h he (ha event he)
    rw [hacq]
    rfl
  refine ⟨_, listReorder_eq hsome, by simp [listSwap, Card.fetch], ?_⟩
  intro event acq hacq
  simp only [listSwap, Card.fetch, List.map_map, List.getElem?_map, Option.map_eq_some_iff,
    comp_apply] at hacq
  obtain ⟨i, hi, rfl⟩ := hacq
  obtain ⟨he, rfl⟩ := List.getElem?_eq_some_iff.mp hi
  rw [List.length_range] at he
  rw [List.getElem_range]
  obtain ⟨acq, hacq, hiff⟩ := acqAlign_inOrder_iff o beyond h he (ha event he)
  rw [hacq]
  exact hiff

end EndToEnd

/-- A SIS3320 in two segments, with events of 64 samples. -/
def twoSegmentCard : Card where
  ops := ⟨true, true, true, true⟩
  maxNrEvents := 512
  nChannels := 8
  evLengths := sis3320EvLengths
  nSegmentsMax := 2
  nSegmentsMin := 1
  nSegments := 2
  segments := fun _ =>
    { acquiring := false, transferring := false, nrSampPerEv := 64, nrEvents := 1,
      endtime := ⟨0, 0⟩ }
  currSegment := 1

theorem twoSegmentCard_place : Place twoSegmentCard 1 1 where
  lengths := rfl
  nSegments := .inr rfl
  segment_lt := by decide
  length_mem := by decide
  fits := by decide

/-- The ring after 72 samples that count up: the last eight are written over the first eight. -/
def countedMem (a : ℕ) : BitVec 16 :=
  if a % 64 < 8 then BitVec.ofNat 16 (64 + a % 64) else BitVec.ofNat 16 (a % 64)

/-- The 72 samples. -/
def counted : List (BitVec 16) := (List.range 72).map (BitVec.ofNat 16)

theorem counted_acquired : Acquired countedMem 0x1000000 64 0x11000009 counted where
  groups := by decide
  addr := by decide
  wrap := by decide
  filled := by
    intro t hle x hx
    rw [counted, List.getElem?_map, Option.map_eq_some_iff] at hx
    obtain ⟨i, hi, rfl⟩ := hx
    obtain ⟨hlt, rfl⟩ := List.getElem?_eq_some_iff.mp hi
    rw [List.length_range] at hlt
    rw [counted, List.length_map, List.length_range] at hle
    rw [List.getElem_range, countedMem]
    split
    · congr 1
      omega
    · congr 1
      omega

/-- The second of two segments, stopped after one and a bit rounds of its ring: the first two of
the 64 valid samples are dropped. -/
theorem normalize_inOrder_counted :
    ∃ acqs, listNormalize .little (twoSegmentCard.fetch .little countedMem (fun _ => 0) 1
        (fun _ => 0x11000009) 1) = some acqs ∧
      ∀ acq, acqs[0]? = some acq → InOrder 64 0x11000009 counted acq := by
  obtain ⟨acqs, hacqs, -, hiff⟩ := normalize_inOrder_iff .little (fun _ => 0)
    (fun _ => 0x11000009) (fun _ => counted) twoSegmentCard_place fun event he => by
      obtain rfl : event = 0 := by omega
      exact counted_acquired
  refine ⟨acqs, hacqs, fun acq hacq => ?_⟩
  exact (hiff 0 acq hacq).mpr ⟨.inl (by decide), .inl rfl⟩

/-- An event that was stopped before its first group of samples, with the stop at position 1: the
number of samples becomes `0 - 2`. -/
theorem empty_event_not_inOrder :
    Place twoSegmentCard 1 1 ∧
      Acquired (fun _ => 0) (twoSegmentCard.eventBase 1 0) (twoSegmentCard.eventLen 1) 0x1000001
        [] ∧
      ∃ acq, listNormalize .little (twoSegmentCard.fetch .little (fun _ => 0) (fun _ => 0) 1
          (fun _ => 0x1000001) 1) = some [acq] ∧
        acq.nrSamples = 0xfffffffe ∧ ¬ InOrder 64 0x1000001 [] acq := by
  refine ⟨twoSegmentCard_place, ⟨rfl, fun t _ x hx => by simp at hx, by decide, by decide⟩, ?_⟩
  have hrun : (listNormalize .little (twoSegmentCard.fetch .little (fun _ => 0) (fun _ => 0) 1
      (fun _ => 0x1000001) 1)).map (·.map AcqBuffer.nrSamples) = some [0xfffffffe] := by
    decide +kernel
  obtain ⟨acqs, hacqs, hmap⟩ := Option.map_eq_some_iff.mp hrun
  obtain ⟨acq, rfl, hnr⟩ := List.map_eq_singleton_iff.mp hmap
  refine ⟨acq, hacqs, hnr, ?_⟩
  rintro ⟨-, hcount, -⟩
  rw [hnr] at hcount
  exact absurd hcount (by decide)

end KernelModules.Sis33
