import Mathlib.Data.Nat.Log
import Mathlib.Tactic

/-!
# A digitizer card and the locked sections of its ioctls

The SIS33 core keeps one `struct sis33_card` per board.  Its memory is cut into segments, each with
a flag for a running acquisition and one for a running transfer; `ACQUIRE` and `FETCH` test and
set these flags under `card->lock`, and the driver of the board clears the first when the
acquisition is over.

* `Card`, `Segment`, `AcqDesc`, `AcqList` and `Acq` follow the structures of the source;
* `Card.acqStartLocked` is `sis33_acq_start_ioctl` between its lock and its unlock;
* `Card.fetchEntry` and `Card.fetchMark` are the two checks of `sis33_fetch_ioctl`, the second of
  which is made again after a wait;
* `Card.storeNSegments` is the sysfs store that cuts the memory anew;
* `isAcquiring_eq_false_iff` and the inversion lemmas `acqStartLocked_ok`, `fetchMark_ok`,
  `storeNSegments_ok` say all that a section that succeeds has tested and set.
-/

namespace KernelModules.Sis33

open Function

/-! ### The data model -/

/-- The error numbers the core answers with. -/
inductive Errno where
  | eintr
  | enomem
  | efault
  | ebusy
  | einval
  | enotty
  | enodata
  | etime
  deriving DecidableEq, Repr

/-- An error as the ioctl returns it. -/
def Errno.ret : Errno → ℤ
  | .eintr => -4
  | .enomem => -12
  | .efault => -14
  | .ebusy => -16
  | .einval => -22
  | .enotty => -25
  | .enodata => -61
  | .etime => -62

theorem Errno.ret_neg (e : Errno) : e.ret < 0 := by
  cases e <;> decide

/-- `struct timespec` on the 64-bit kernel. -/
structure Timespec where
  tvSec : BitVec 64
  tvNsec : BitVec 64
  deriving DecidableEq, Repr

/-- `struct timeval` on the 64-bit kernel. -/
structure Timeval where
  tvSec : BitVec 64
  tvUsec : BitVec 64
  deriving DecidableEq, Repr

/-- `struct sis33_segment`: the two flags, and what the last acquisition left. -/
structure Segment where
  acquiring : Bool
  transferring : Bool
  nrSampPerEv : BitVec 32
  nrEvents : BitVec 32
  endtime : Timeval
  deriving DecidableEq, Repr

/-- Which operations the module of the board provides. -/
structure CardOps where
  confEv : Bool
  fetch : Bool
  acqStart : Bool
  acqWait : Bool
  deriving DecidableEq, Repr

/-- The part of `struct sis33_card` the ioctls read and write. -/
structure Card where
  ops : CardOps
  maxNrEvents : BitVec 32
  nChannels : ℕ
  evLengths : List (BitVec 32)
  nSegmentsMax : ℕ
  nSegmentsMin : ℕ
  nSegments : ℕ
  segments : ℕ → Segment
  currSegment : ℕ

/-- `struct sis33_acq_desc`. -/
structure AcqDesc where
  segment : BitVec 32
  nrEvents : BitVec 32
  evLength : BitVec 32
  flags : BitVec 32
  timeout : Timespec
  deriving DecidableEq, Repr

/-- `struct sis33_acq`, the buffer of one event. -/
structure Acq where
  data : BitVec 64
  size : BitVec 32
  nrSamples : BitVec 32
  prevticks : BitVec 64
  firstSamp : BitVec 32
  be : BitVec 32
  trigCorrection : BitVec 32
  deriving DecidableEq, Repr

/-- `struct sis33_acq_list`. -/
structure AcqList where
  segment : BitVec 32
  channel : BitVec 32
  acqs : BitVec 64
  nAcqs : BitVec 32
  flags : BitVec 32
  timeout : Timespec
  endtime : Timeval
  deriving DecidableEq, Repr

/-- `SIS33_ACQF_DONTWAIT`. -/
def dontwait (flags : BitVec 32) : Bool := flags.getLsbD 0

/-- `SIS33_ACQF_TIMEOUT`. -/
def hasTimeout (flags : BitVec 32) : Bool := flags.getLsbD 1

namespace Card

/-- A segment changes, the others stay. -/
def setSegment (card : Card) (i : ℕ) (seg : Segment) : Card :=
  { card with segments := update card.segments i seg }

def setAcquiring (card : Card) (i : ℕ) (v : Bool) : Card :=
  card.setSegment i { card.segments i with acquiring := v }

def setTransferring (card : Card) (i : ℕ) (v : Bool) : Card :=
  card.setSegment i { card.segments i with transferring := v }

/-- What the driver writes into a segment when its acquisition is over. -/
def setResults (card : Card) (i : ℕ) (nrEvents : BitVec 32) (endtime : Timeval) : Card :=
  card.setSegment i { card.segments i with nrEvents := nrEvents, endtime := endtime }

/-! ### The tests -/

def isAcquiring (card : Card) : Bool :=
  (List.range card.nSegments).any fun i => (card.segments i).acquiring

def isTransferring (card : Card) : Bool :=
  (List.range card.nSegments).any fun i => (card.segments i).transferring

/-- The first entry of `ev_lengths` is the length of the whole memory. -/
def segmentMaxNrSamples (card : Card) : ℕ :=
  (card.evLengths.headD 0).toNat / (card.nSegments / card.nSegmentsMin)

/-- Every buffer that is going to be filled has exactly the size of an event. -/
def checkAcqBuffers (card : Card) (segment : ℕ) (acqs : List Acq) (n : ℕ) : Bool :=
  (acqs.take n).all fun acq =>
    acq.size ≠ 0 && acq.size.toNat = (card.segments segment).nrSampPerEv.toNat * 2

/-! ### The locked sections -/

/-- Membership in the table of event lengths is decided by comparing words. -/
local instance lawfulWord : LawfulBEq (BitVec 32) := inferInstance

/-- `sis33_acq_start_ioctl` under the lock; `confEv` is what the module's `conf_ev` returns. -/
def acqStartLocked (card : Card) (desc : AcqDesc) (confEv : ℤ) : Except ℤ Card :=
  let seg := desc.segment.toNat
  if desc.nrEvents > card.maxNrEvents then .error Errno.einval.ret
  else if seg ≥ card.nSegments then .error Errno.einval.ret
  else if ¬ desc.evLength ∈ card.evLengths then .error Errno.einval.ret
  else if (desc.nrEvents * desc.evLength).toNat > card.segmentMaxNrSamples then
    .error Errno.einval.ret
  else if (card.segments seg).transferring || card.isAcquiring then .error Errno.ebusy.ret
  else if ¬ card.ops.confEv then .error Errno.einval.ret
  else if confEv ≠ 0 then .error confEv
  else
    .ok
      { card.setSegment seg
          { card.segments seg with acquiring := true, nrSampPerEv := desc.evLength } with
        currSegment := seg }

/-- The segment and the channel of a fetch exist. -/
def fetchEntry (card : Card) (list : AcqList) : Bool :=
  list.segment.toNat < card.nSegments && list.channel.toNat < card.nChannels

/-- `sis33_fetch_ioctl` from its test of the two flags to its unlock: how many events are going to
be read, and the time at which the acquisition ended. -/
def fetchMark (card : Card) (list : AcqList) (acqs : List Acq) :
    Except ℤ (ℕ × Timeval × Card) :=
  let seg := list.segment.toNat
  let segment := card.segments seg
  let nrEvents := min segment.nrEvents.toNat list.nAcqs.toNat
  if segment.acquiring || segment.transferring then .error Errno.ebusy.ret
  else if nrEvents = 0 then .error Errno.enodata.ret
  else if ¬ card.checkAcqBuffers seg acqs nrEvents then .error Errno.einval.ret
  else .ok (nrEvents, segment.endtime, card.setTransferring seg true)

/-- `__roundup_pow_of_two`, which is one for zero. -/
def roundupPowOfTwo (n : ℕ) : ℕ := 2 ^ Nat.clog 2 n

/-- `sis33_store_n_segments` of a number the sysfs parser has accepted. -/
def storeNSegments (card : Card) (segments : ℤ) : Except ℤ Card :=
  if segments < card.nSegmentsMin then .error Errno.einval.ret
  else if card.isAcquiring || card.isTransferring then .error Errno.ebusy.ret
  else .ok { card with nSegments := min (roundupPowOfTwo segments.toNat) card.nSegmentsMax }

/-! ### What the sections have tested and set -/

variable {card card' : Card}

@[simp] theorem segments_setSegment_self (card : Card) (i : ℕ) (seg : Segment) :
    (card.setSegment i seg).segments i = seg := update_self _ _ _

theorem segments_setSegment_of_ne (card : Card) {i j : ℕ} (h : j ≠ i) (seg : Segment) :
    (card.setSegment i seg).segments j = card.segments j := update_of_ne h _ _

@[simp] theorem nSegments_setSegment (card : Card) (i : ℕ) (seg : Segment) :
    (card.setSegment i seg).nSegments = card.nSegments := rfl

@[simp] theorem currSegment_setSegment (card : Card) (i : ℕ) (seg : Segment) :
    (card.setSegment i seg).currSegment = card.currSegment := rfl

theorem acquiring_setSegment (card : Card) (i : ℕ) (seg : Segment) (j : ℕ) :
    ((card.setSegment i seg).segments j).acquiring =
      if j = i then seg.acquiring else (card.segments j).acquiring := by
  by_cases h : j = i
  · subst h
    rw [segments_setSegment_self, if_pos rfl]
  · rw [segments_setSegment_of_ne card h, if_neg h]

theorem transferring_setSegment (card : Card) (i : ℕ) (seg : Segment) (j : ℕ) :
    ((card.setSegment i seg).segments j).transferring =
      if j = i then seg.transferring else (card.segments j).transferring := by
  by_cases h : j = i
  · subst h
    rw [segments_setSegment_self, if_pos rfl]
  · rw [segments_setSegment_of_ne card h, if_neg h]

theorem transferring_setAcquiring (card : Card) (i : ℕ) (v : Bool) (j : ℕ) :
    ((card.setAcquiring i v).segments j).transferring = (card.segments j).transferring := by
  rw [setAcquiring, transferring_setSegment]
  split
  · rename_i h
    rw [h]
  · rfl

theorem acquiring_setTransferring (card : Card) (i : ℕ) (v : Bool) (j : ℕ) :
    ((card.setTransferring i v).segments j).acquiring = (card.segments j).acquiring := by
  rw [setTransferring, acquiring_setSegment]
  split
  · rename_i h
    rw [h]
  · rfl

theorem transferring_setResults (card : Card) (i : ℕ) (nrEvents : BitVec 32) (endtime : Timeval)
    (j : ℕ) :
    ((card.setResults i nrEvents endtime).segments j).transferring =
      (card.segments j).transferring := by
  rw [setResults, transferring_setSegment]
  split
  · rename_i h
    rw [h]
  · rfl

theorem acquiring_setResults (card : Card) (i : ℕ) (nrEvents : BitVec 32) (endtime : Timeval)
    (j : ℕ) :
    ((card.setResults i nrEvents endtime).segments j).acquiring = (card.segments j).acquiring := by
  rw [setResults, acquiring_setSegment]
  split
  · rename_i h
    rw [h]
  · rfl

theorem acquiring_setAcquiring (card : Card) (i : ℕ) (v : Bool) (j : ℕ) :
    ((card.setAcquiring i v).segments j).acquiring =
      if j = i then v else (card.segments j).acquiring := acquiring_setSegment _ _ _ _

theorem transferring_setTransferring (card : Card) (i : ℕ) (v : Bool) (j : ℕ) :
    ((card.setTransferring i v).segments j).transferring =
      if j = i then v else (card.segments j).transferring := transferring_setSegment _ _ _ _

theorem acquiring_of_setAcquiring_false {i j : ℕ}
    (h : ((card.setAcquiring i false).segments j).acquiring = true) :
    (card.segments j).acquiring = true := by
  rw [acquiring_setAcquiring] at h
  split at h
  · cases h
  · exact h

theorem isAcquiring_eq_false_iff :
    card.isAcquiring = false ↔ ∀ i < card.nSegments, (card.segments i).acquiring = false := by
  simp [isAcquiring]

theorem acqStartLocked_ok {desc : AcqDesc} {confEv : ℤ}
    (h : card.acqStartLocked desc confEv = .ok card') :
    desc.segment.toNat < card.nSegments ∧
      (card.segments desc.segment.toNat).transferring = false ∧ card.isAcquiring = false ∧
      card' =
        { card.setSegment desc.segment.toNat
            { card.segments desc.segment.toNat with
              acquiring := true, nrSampPerEv := desc.evLength } with
          currSegment := desc.segment.toNat } := by
  simp only [acqStartLocked] at h
  split at h; · cases h
  split at h; · cases h
  rename_i hseg
  split at h; · cases h
  split at h; · cases h
  split at h; · cases h
  rename_i hbusy
  split at h; · cases h
  split at h; · cases h
  cases h
  rw [Bool.or_eq_true, not_or, Bool.not_eq_true, Bool.not_eq_true] at hbusy
  exact ⟨Nat.lt_of_not_le hseg, hbusy.1, hbusy.2, rfl⟩

theorem fetchMark_ok {list : AcqList} {acqs : List Acq} {n : ℕ} {t : Timeval}
    (h : card.fetchMark list acqs = .ok (n, t, card')) :
    (card.segments list.segment.toNat).acquiring = false ∧
      (card.segments list.segment.toNat).transferring = false ∧
      card' = card.setTransferring list.segment.toNat true := by
  simp only [fetchMark] at h
  split at h; · cases h
  rename_i hbusy
  split at h; · cases h
  split at h; · cases h
  cases h
  rw [Bool.or_eq_true, not_or, Bool.not_eq_true, Bool.not_eq_true] at hbusy
  exact ⟨hbusy.1, hbusy.2, rfl⟩

theorem fetchMark_pos {list : AcqList} {acqs : List Acq} {n : ℕ} {t : Timeval}
    (h : card.fetchMark list acqs = .ok (n, t, card')) : 0 < n := by
  simp only [fetchMark] at h
  split at h; · cases h
  split at h; · cases h
  rename_i hpos
  split at h; · cases h
  cases h
  exact Nat.pos_of_ne_zero hpos

theorem fetchMark_error {list : AcqList} {acqs : List Acq} {e : ℤ}
    (h : card.fetchMark list acqs = .error e) : ∃ err : Errno, e = err.ret := by
  simp only [fetchMark] at h
  split at h
  · cases h
    exact ⟨.ebusy, rfl⟩
  · split at h
    · cases h
      exact ⟨.enodata, rfl⟩
    · split at h
      · cases h
        exact ⟨.einval, rfl⟩
      · cases h

theorem acqStartLocked_error {desc : AcqDesc} {e : ℤ}
    (h : card.acqStartLocked desc 0 = .error e) : e = Errno.einval.ret ∨ e = Errno.ebusy.ret := by
  simp only [acqStartLocked] at h
  split at h; · cases h; exact Or.inl rfl
  split at h; · cases h; exact Or.inl rfl
  split at h; · cases h; exact Or.inl rfl
  split at h; · cases h; exact Or.inl rfl
  split at h; · cases h; exact Or.inr rfl
  split at h; · cases h; exact Or.inl rfl
  split at h
  · rename_i hne
    exact absurd rfl hne
  · cases h

theorem storeNSegments_ok {segments : ℤ} (h : card.storeNSegments segments = .ok card') :
    card.isAcquiring = false ∧
      card' = { card with
        nSegments := min (roundupPowOfTwo segments.toNat) card.nSegmentsMax } := by
  simp only [storeNSegments] at h
  split at h; · cases h
  split at h; · cases h
  rename_i hbusy
  cases h
  rw [Bool.or_eq_true, not_or, Bool.not_eq_true, Bool.not_eq_true] at hbusy
  exact ⟨hbusy.1, rfl⟩

end Card

end KernelModules.Sis33
