import Mathlib
import KernelModules.Lib.Word
import KernelModules.Sis33.SampleOrder

/-!
# The size of an acquisition

`ACQUIRE` asks for a number of events of a length, and the core compares their product with the
share of a segment.  The driver of the board computes the place of a segment on its own.

* `Config` are the cards that the two drivers register and `n_segments` may cut, `place` is where a
  segment begins, in which bank;
* `SizeOk` is that the events lie in their own segment, `size_check_iff` when the check grants it:
  the product is one of 32 bits, and no events at all are accepted too.
-/

namespace KernelModules.Sis33

open KernelModules.Lib.Word

/-- The module that has registered the card. -/
inductive Driver
  | sis3300
  | sis3320
  deriving DecidableEq, Repr

/-- `sis3300_ev_lengths`. -/
def sis3300EvLengths : List (BitVec 32) := [131072, 16384, 4096, 2048, 1024, 512, 256, 128]

/-- `sis3300_08_ev_lengths`. -/
def sis330008EvLengths : List (BitVec 32) :=
  [131072, 32768, 16384, 8192, 4096, 2048, 1024, 512, 256, 128]

/-- How a driver sets up a card, and how `n_segments` may cut it: into a power of two of segments.
The SIS3300 always has its two banks. -/
def Driver.Config : Driver → Card → Prop
  | .sis3300, card =>
    card.nSegmentsMin = 2 ∧ card.nSegments = 2 ∧
      (card.evLengths = sis3300EvLengths ∨ card.evLengths = sis330008EvLengths)
  | .sis3320, card =>
    card.nSegmentsMin = 1 ∧ card.evLengths = sis3320EvLengths ∧ ∃ k ≤ 23, card.nSegments = 2 ^ k

/-- The bank of a segment and its first sample there. -/
def Driver.place : Driver → Card → ℕ → ℕ × ℕ
  | .sis3300, _, segment => (segment, 0)
  | .sis3320, card, segment => (0, (card.segmentBase segment).toNat)

/-- `sis33_acq_start_ioctl` accepts a descriptor. -/
def Card.Accepts (card : Card) (desc : AcqDesc) : Prop :=
  ∃ confEv card', card.acqStartLocked desc confEv = .ok card'

/-- There is an event, the events do not exceed the share of their segment, and each of them is
outside of all other segments. -/
def SizeOk (driver : Driver) (card : Card) (desc : AcqDesc) : Prop :=
  let len := desc.evLength.toNat
  let base := (driver.place card desc.segment.toNat).2
  1 ≤ desc.nrEvents.toNat ∧ desc.nrEvents.toNat * len ≤ card.segmentMaxNrSamples ∧
    ∀ e < desc.nrEvents.toNat, ∀ t < card.nSegments, t ≠ desc.segment.toNat →
      (driver.place card t).1 ≠ (driver.place card desc.segment.toNat).1 ∨
        Disjoint (Set.Ico (base + e * len) (base + (e + 1) * len))
          (Set.Ico (driver.place card t).2 ((driver.place card t).2 + card.segmentMaxNrSamples))

/-! ### The check -/

theorem Card.Accepts.checks {card : Card} {desc : AcqDesc} (h : card.Accepts desc) :
    desc.segment.toNat < card.nSegments ∧
      (desc.nrEvents * desc.evLength).toNat ≤ card.segmentMaxNrSamples := by
  obtain ⟨confEv, card', hok⟩ := h
  simp only [Card.acqStartLocked] at hok
  split at hok; · cases hok
  split at hok; · cases hok
  rename_i hseg
  split at hok; · cases hok
  split at hok; · cases hok
  rename_i hsize
  exact ⟨not_le.1 hseg, not_lt.1 hsize⟩

theorem Card.segmentMaxNrSamples_lt (card : Card) : card.segmentMaxNrSamples < 2 ^ 32 :=
  lt_of_le_of_lt (Nat.div_le_self _ _) (card.evLengths.headD 0).isLt

theorem Card.Accepts.mul_le {card : Card} {desc : AcqDesc} (h : card.Accepts desc)
    (hlt : desc.nrEvents.toNat * desc.evLength.toNat < 2 ^ 32) :
    desc.nrEvents.toNat * desc.evLength.toNat ≤ card.segmentMaxNrSamples := by
  have hsize := h.checks.2
  rwa [BitVec.toNat_mul, Nat.mod_eq_of_lt hlt] at hsize

/-! ### The segments of a SIS3320 -/

theorem toNat_and_base (x : BitVec 32) :
    (x &&& 0x01fffffc).toNat = x.toNat % 2 ^ 25 / 4 * 4 := by
  have hmask : (0x01fffffc : BitVec 32) =
    BitVec.ofNat 32 (2 ^ 25 - 1) &&& ~~~(BitVec.ofNat 32 (2 ^ 2 - 1)) := by decide
  rw [hmask, ← BitVec.and_assoc, toNat_and_not_low, toNat_and_low x 25 (by decide)]
  rfl

theorem Card.segmentBase_toNat {card : Card} (h : Driver.sis3320.Config card) {t : ℕ}
    (ht : t < card.nSegments) :
    (card.segmentBase t).toNat = t * card.segmentMaxNrSamples := by
  obtain ⟨hmin, hlengths, k, hk, hn⟩ := h
  have hlength : card.evLengths.headD 0 = 33554432 := by
    rw [hlengths]
    rfl
  obtain ⟨q, hq⟩ : ∃ q, 2 ^ k * q = 2 ^ 23 := ⟨2 ^ (23 - k), by rw [← pow_add]; congr 1; omega⟩
  have hqpos : 0 < q := Nat.pos_of_ne_zero fun h => by simp [h] at hq
  have hpos : 0 < 2 ^ k := Nat.two_pow_pos k
  have hle : 2 ^ k ≤ 2 ^ 23 := Nat.pow_le_pow_right (by decide) hk
  have hwhole : (33554432 : BitVec 32).toNat = 2 ^ k * (4 * q) := by
    rw [Nat.mul_left_comm, hq]
    rfl
  have hshare : card.segmentMaxNrSamples = 4 * q := by
    unfold Card.segmentMaxNrSamples
    rw [hlength, hmin, Nat.div_one, hn, hwhole, Nat.mul_div_cancel_left _ hpos]
  have hend : t * q + q ≤ 2 ^ 23 := by
    rw [hn] at ht
    rw [← Nat.succ_mul, ← hq]
    exact Nat.mul_le_mul_right q (Nat.succ_le_of_lt ht)
  unfold Card.segmentBase
  rw [toNat_and_base, hlength, hshare, BitVec.toNat_mul, BitVec.toNat_udiv, hn, BitVec.toNat_ofNat,
    BitVec.toNat_ofNat, Nat.mod_eq_of_lt (b := 2 ^ 32) (a := 2 ^ k) (by omega),
    Nat.mod_eq_of_lt (b := 2 ^ 32) (a := t) (by omega), hwhole,
    Nat.mul_div_cancel_left _ hpos, Nat.mul_left_comm]
  omega

theorem disjoint_of_shares {s t size p q : ℕ} (hne : t ≠ s) (hp : s * size ≤ p)
    (hq : q ≤ (s + 1) * size) :
    Disjoint (Set.Ico p q) (Set.Ico (t * size) (t * size + size)) := by
  rw [Set.disjoint_left]
  rintro x ⟨hpx, hxq⟩ ⟨htx, hxt⟩
  rw [Nat.succ_mul] at hq
  rcases Nat.lt_or_gt_of_ne hne with hlt | hgt
  · have hmul := Nat.mul_le_mul_right size (Nat.succ_le_of_lt hlt)
    rw [Nat.succ_mul] at hmul
    omega
  · have hmul := Nat.mul_le_mul_right size (Nat.succ_le_of_lt hgt)
    rw [Nat.succ_mul] at hmul
    omega

/-! ### When the events fit -/

/-- **The size check.**  The events of a descriptor that is accepted lie in their own segment if and
only if there are some, and their number times their length is below `2 ^ 32`. -/
theorem size_check_iff {driver : Driver} {card : Card} {desc : AcqDesc}
    (hconfig : driver.Config card) (h : card.Accepts desc) :
    SizeOk driver card desc ↔
      1 ≤ desc.nrEvents.toNat ∧ desc.nrEvents.toNat * desc.evLength.toNat < 2 ^ 32 := by
  constructor
  · rintro ⟨hpos, hle, -⟩
    exact ⟨hpos, hle.trans_lt card.segmentMaxNrSamples_lt⟩
  · rintro ⟨hpos, hlt⟩
    have hle := h.mul_le hlt
    refine ⟨hpos, hle, fun e he t ht hne => ?_⟩
    cases driver with
    | sis3300 => exact Or.inl hne
    | sis3320 =>
      refine Or.inr ?_
      have hevents : (e + 1) * desc.evLength.toNat ≤ card.segmentMaxNrSamples :=
        (Nat.mul_le_mul_right _ he).trans hle
      have hbase : (Driver.sis3320.place card desc.segment.toNat).2 =
          desc.segment.toNat * card.segmentMaxNrSamples :=
        Card.segmentBase_toNat hconfig h.checks.1
      have hother : (Driver.sis3320.place card t).2 = t * card.segmentMaxNrSamples :=
        Card.segmentBase_toNat hconfig ht
      rw [hbase, hother]
      refine disjoint_of_shares hne (Nat.le_add_right _ _) ?_
      rw [Nat.succ_mul desc.segment.toNat]
      exact Nat.add_le_add_left hevents _

/-- An acquisition on the second segment. -/
def askFor (nrEvents evLength : BitVec 32) : AcqDesc := ⟨1, nrEvents, evLength, 0, ⟨0, 0⟩⟩

theorem twoSegmentCard_config : Driver.sis3320.Config twoSegmentCard :=
  ⟨rfl, rfl, 1, by decide, rfl⟩

theorem size_check_iff_small :
    SizeOk .sis3320 twoSegmentCard (askFor 3 64) ↔
      1 ≤ (askFor 3 64).nrEvents.toNat ∧
        (askFor 3 64).nrEvents.toNat * (askFor 3 64).evLength.toNat < 2 ^ 32 :=
  size_check_iff twoSegmentCard_config ⟨0, _, rfl⟩

/-- 256 events of `2 ^ 24` samples are accepted, and an acquisition without events. -/
theorem size_check_broken :
    (twoSegmentCard.Accepts (askFor 256 16777216) ∧
      ¬ SizeOk .sis3320 twoSegmentCard (askFor 256 16777216)) ∧
    twoSegmentCard.Accepts (askFor 0 64) ∧ ¬ SizeOk .sis3320 twoSegmentCard (askFor 0 64) := by
  refine ⟨⟨⟨0, _, rfl⟩, fun hok => ?_⟩, ⟨0, _, rfl⟩, fun hok => ?_⟩
  · have hle : 256 * 16777216 ≤ twoSegmentCard.segmentMaxNrSamples := hok.2.1
    have hlt := twoSegmentCard.segmentMaxNrSamples_lt
    omega
  · exact absurd hok.1 (by decide)

end KernelModules.Sis33
