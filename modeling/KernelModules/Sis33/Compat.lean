import KernelModules.Sis33.Exclusion

/-!
# The 32-bit ioctls

A 32-bit client's `ACQUIRE` and `FETCH` go through `sis33_compat_ioctl`, which translates the
request into scratch space on the client's stack, calls the native ioctl on it, and copies the
outputs of a `FETCH` back.

* `CompatAcqDesc`, `CompatAcqList` and `CompatAcq` are the 32-bit structures and their `widen` the
  field-by-field translation;
* `Env` is what the calls meet on their way: signals, allocations, waits, the driver's answers, and
  which user memory can be read and written;
* `sis33AcqStartIoctl` and `sis33FetchIoctl` are the native ioctls, `compatAcquireIoctl` and
  `compatFetchIoctl` the 32-bit ones; an `Answer` is the return value, the operations on the card
  and what the client reads in its request afterwards;
* `compat_agrees_iff` says for which requests the two interfaces agree.  `ACQUIRE` is passed on as
  a `FETCH`, so it is right only where both are refused alike; a `FETCH` that succeeds returns its
  count before the outputs are copied back, so it is right only where nothing changes.
-/

namespace KernelModules.Sis33

/-! ### The 32-bit structures -/

/-- `struct compat_timespec`. -/
structure CompatTimespec where
  tvSec : BitVec 32
  tvNsec : BitVec 32
  deriving DecidableEq, Repr

/-- `struct compat_timeval`. -/
structure CompatTimeval where
  tvSec : BitVec 32
  tvUsec : BitVec 32
  deriving DecidableEq, Repr

/-- `struct sis33_compat_acq_desc`. -/
structure CompatAcqDesc where
  segment : BitVec 32
  nrEvents : BitVec 32
  evLength : BitVec 32
  flags : BitVec 32
  timeout : CompatTimespec
  deriving DecidableEq, Repr

/-- `struct sis33_compat_acq`. -/
structure CompatAcq where
  data : BitVec 32
  size : BitVec 32
  nrSamples : BitVec 32
  prevticks : BitVec 64
  firstSamp : BitVec 32
  be : BitVec 32
  trigCorrection : BitVec 32
  deriving DecidableEq, Repr

/-- `struct sis33_compat_acq_list`. -/
structure CompatAcqList where
  segment : BitVec 32
  channel : BitVec 32
  nAcqs : BitVec 32
  acqs : BitVec 32
  flags : BitVec 32
  timeout : CompatTimespec
  endtime : CompatTimeval
  deriving DecidableEq, Repr

/-- The fields of a buffer that a `FETCH` reports. -/
structure AcqOutputs where
  size : BitVec 32
  nrSamples : BitVec 32
  prevticks : BitVec 64
  firstSamp : BitVec 32
  be : BitVec 32
  trigCorrection : BitVec 32
  deriving DecidableEq, Repr

def Acq.outputs (acq : Acq) : AcqOutputs :=
  ⟨acq.size, acq.nrSamples, acq.prevticks, acq.firstSamp, acq.be, acq.trigCorrection⟩

def CompatAcq.outputs (acq : CompatAcq) : AcqOutputs :=
  ⟨acq.size, acq.nrSamples, acq.prevticks, acq.firstSamp, acq.be, acq.trigCorrection⟩

/-- `sis33_get_compat_timespec`: the fields are signed. -/
def CompatTimespec.widen (ts : CompatTimespec) : Timespec :=
  ⟨ts.tvSec.signExtend 64, ts.tvNsec.signExtend 64⟩

def CompatTimeval.widen (tv : CompatTimeval) : Timeval :=
  ⟨tv.tvSec.signExtend 64, tv.tvUsec.signExtend 64⟩

/-- What a 32-bit client reads of a time. -/
def Timeval.narrow (tv : Timeval) : CompatTimeval := ⟨tv.tvSec.setWidth 32, tv.tvUsec.setWidth 32⟩

/-- `sis33_get_compat_acq_desc`. -/
def CompatAcqDesc.widen (desc : CompatAcqDesc) : AcqDesc :=
  ⟨desc.segment, desc.nrEvents, desc.evLength, desc.flags, desc.timeout.widen⟩

/-- `sis33_get_compat_acq`; `compat_ptr` extends a pointer by zeros. -/
def CompatAcq.widen (acq : CompatAcq) : Acq :=
  { data := acq.data.setWidth 64
    size := acq.size
    nrSamples := acq.nrSamples
    prevticks := acq.prevticks
    firstSamp := acq.firstSamp
    be := acq.be
    trigCorrection := acq.trigCorrection }

/-- `sis33_get_compat_acq_list`, with the buffers at `acqs`. -/
def CompatAcqList.widenAt (list : CompatAcqList) (acqs : BitVec 64) : AcqList :=
  { segment := list.segment
    channel := list.channel
    acqs := acqs
    nAcqs := list.nAcqs
    flags := list.flags
    timeout := list.timeout.widen
    endtime := list.endtime.widen }

def CompatAcqList.widen (list : CompatAcqList) : AcqList := list.widenAt (list.acqs.setWidth 64)

/-! ### What the calls meet -/

/-- How an `acq_wait` ends. -/
inductive WaitResult where
  | done
  | interrupted
  | expired
  deriving DecidableEq, Repr

/-- Which user memory of a call can be read and written. -/
structure Access where
  listRead : Bool
  acqsRead : Bool
  listWrite : Bool
  acqsWrite : Bool
  deriving DecidableEq, Repr

/-- The surroundings of a call.  A driver's `conf_ev` returns minus `confEv`, its `fetch` an error
or the buffers it has filled; `afterWait` is what others have made of the card during a wait. -/
structure Env where
  access : Access
  interrupted : Bool
  interruptedAgain : Bool
  kzalloc : BitVec 32 → Bool
  wait : Option Timespec → WaitResult
  afterWait : Card → Card
  confEv : ℕ
  fetch : ℕ → ℕ → List Acq → ℕ → Except {e : ℤ // e < 0} (List Acq)
  /-- There is room on the client's stack for a descriptor, or for a list of `n` buffers. -/
  scratchDesc : Bool
  scratchList : BitVec 32 → Bool
  /-- Where the scratch space is, and what lies in it behind the fields that are filled in. -/
  scratch : BitVec 64
  leftover : BitVec 64 × Timeval
  /-- The client's memory at an arbitrary address, as buffers. -/
  stray : BitVec 64 → BitVec 32 → List Acq
  strayRead : BitVec 64 → Bool
  strayWrite : BitVec 64 → Bool

/-- What a call does with the card: it calls `conf_ev`, marks a segment acquiring and makes it the
current one, calls `acq_start`, or calls `fetch` with its segment marked. -/
inductive CardAction where
  | confEv (desc : AcqDesc)
  | mark (segment : ℕ) (evLength : BitVec 32)
  | acqStart
  | fetch (segment channel : ℕ) (acqs : List Acq) (nrEvents : ℕ)
  deriving DecidableEq, Repr

/-- The result of a call as a 32-bit client sees it. -/
structure Answer where
  ret : ℤ
  actions : List CardAction
  outputs : Option (CompatTimeval × List AcqOutputs)
  deriving DecidableEq, Repr

/-! ### The native ioctls -/

/-- The error with which `ACQUIRE` refuses a descriptor before it calls `conf_ev`. -/
def acquireRefusal (env : Env) (card : Card) (desc : AcqDesc) : Option ℤ :=
  if badFlags desc.flags then some Errno.einval.ret
  else if env.interrupted then some Errno.eintr.ret
  else
    match card.acqStartLocked desc 0 with
    | .error e => some e
    | .ok _ => none

/-- The return value of an `acq_wait`. -/
def WaitResult.ret : WaitResult → ℤ
  | .done => 0
  | .interrupted => Errno.eintr.ret
  | .expired => Errno.etime.ret

/-- The timeout a wait is called with. -/
def waitTimeout (flags : BitVec 32) (timeout : Timespec) : Option Timespec :=
  if hasTimeout flags then some timeout else none

/-- `sis33_acq_start_ioctl`. -/
def sis33AcqStartIoctl (env : Env) (card : Card) (desc : AcqDesc) : Answer :=
  if ¬ env.access.listRead then ⟨Errno.efault.ret, [], none⟩
  else
    match acquireRefusal env card desc with
    | some e => ⟨e, [], none⟩
    | none =>
      if env.confEv ≠ 0 then ⟨-env.confEv, [.confEv desc], none⟩
      else
        let marked := [.confEv desc, .mark desc.segment.toNat desc.evLength]
        if ¬ card.ops.acqStart then ⟨Errno.einval.ret, marked, none⟩
        else if ¬ card.ops.acqWait then ⟨Errno.einval.ret, marked ++ [.acqStart], none⟩
        else if dontwait desc.flags then ⟨0, marked ++ [.acqStart], none⟩
        else ⟨(env.wait (waitTimeout desc.flags desc.timeout)).ret, marked ++ [.acqStart], none⟩

/-- The wait of a `FETCH` for the acquisition of its segment: the card it finds afterwards. -/
def fetchWait (env : Env) (card : Card) (list : AcqList) : Except ℤ Card :=
  if ¬ (card.segments list.segment.toNat).acquiring then .ok card
  else if ¬ card.ops.acqWait then .error Errno.einval.ret
  else if dontwait list.flags then .error Errno.ebusy.ret
  else
    match env.wait (waitTimeout list.flags list.timeout) with
    | .done => if env.interruptedAgain then .error Errno.eintr.ret else .ok (env.afterWait card)
    | w => .error w.ret

/-- `sis33_fetch_ioctl` up to the call of `fetch`: the error with which the list is refused, or
how many events are going to be read and when their acquisition ended. -/
def fetchReady (env : Env) (acqsRead : Bool) (card : Card) (list : AcqList) (acqs : List Acq) :
    Except ℤ (ℕ × Timeval) :=
  if badFlags list.flags then .error Errno.einval.ret
  else if list.nAcqs = 0 then .error Errno.einval.ret
  else if ¬ env.kzalloc list.nAcqs then .error Errno.enomem.ret
  else if ¬ acqsRead then .error Errno.efault.ret
  else if env.interrupted then .error Errno.eintr.ret
  else if ¬ card.fetchEntry list then .error Errno.einval.ret
  else
    match fetchWait env card list with
    | .error e => .error e
    | .ok card =>
      match card.fetchMark list acqs with
      | .error e => .error e
      | .ok (nrEvents, endtime, _) => .ok (nrEvents, endtime)

/-- The call of `fetch`: the error, or the filled buffers. -/
def fetchTransfer (env : Env) (card : Card) (list : AcqList) (acqs : List Acq) (nrEvents : ℕ) :
    Except {e : ℤ // e < 0} (List Acq) :=
  if card.ops.fetch then env.fetch list.segment.toNat list.channel.toNat acqs nrEvents
  else .error ⟨Errno.einval.ret, Errno.ret_neg _⟩

/-- What a native `FETCH` leaves: its return value, its operations on the card, and the end time
and the buffers in the client's memory. -/
structure FetchAnswer where
  ret : ℤ
  actions : List CardAction
  endtime : Timeval
  acqs : List Acq

/-- `sis33_fetch_ioctl`. -/
def sis33FetchIoctl (env : Env) (access : Access) (card : Card) (list : AcqList)
    (acqs : List Acq) : FetchAnswer :=
  if ¬ access.listRead then ⟨Errno.efault.ret, [], list.endtime, acqs⟩
  else
    match fetchReady env access.acqsRead card list acqs with
    | .error e => ⟨e, [], list.endtime, acqs⟩
    | .ok (nrEvents, endtime) =>
      let actions := [.fetch list.segment.toNat list.channel.toNat acqs nrEvents]
      match fetchTransfer env card list acqs nrEvents with
      | .error e => ⟨e.1, actions, list.endtime, acqs⟩
      | .ok filled =>
        if ¬ access.listWrite then ⟨Errno.efault.ret, actions, list.endtime, acqs⟩
        else if ¬ access.acqsWrite then ⟨Errno.efault.ret, actions, endtime, acqs⟩
        else ⟨nrEvents, actions, endtime, filled⟩

/-- What a 32-bit client reads of a `FETCH`. -/
def FetchAnswer.report (a : FetchAnswer) : Answer :=
  ⟨a.ret, a.actions, some (a.endtime.narrow, a.acqs.map Acq.outputs)⟩

/-! ### The 32-bit ioctls -/

/-- A request through the 32-bit interface; a list comes with as many buffers as it says. -/
inductive CompatRequest where
  | acquire (desc : CompatAcqDesc)
  | fetch (list : CompatAcqList) (acqs : List CompatAcq) (h : acqs.length = list.nAcqs.toNat)

/-- Scratch space that has been filled can be read and written. -/
def fullAccess : Access := ⟨true, true, true, true⟩

/-- The bytes of a descriptor read as a list.  `acqs` covers the event length and the flags,
`n_acqs` and `flags` the seconds of the timeout, and the timeout its nanoseconds and what follows
the descriptor. -/
def AcqDesc.asList (desc : AcqDesc) (leftover : BitVec 64 × Timeval) : AcqList :=
  { segment := desc.segment
    channel := desc.nrEvents
    acqs := desc.flags ++ desc.evLength
    nAcqs := desc.timeout.tvSec.setWidth 32
    flags := (desc.timeout.tvSec >>> 32).setWidth 32
    timeout := ⟨desc.timeout.tvNsec, leftover.1⟩
    endtime := leftover.2 }

/-- `sis33_compat_acquire_ioctl`: the translated descriptor is passed on with
`SIS33_IOC_FETCH`. -/
def compatAcquireIoctl (env : Env) (card : Card) (desc : CompatAcqDesc) : Answer :=
  if ¬ env.access.listRead ∨ ¬ env.scratchDesc then ⟨Errno.efault.ret, [], none⟩
  else
    let list := desc.widen.asList env.leftover
    let access : Access := ⟨true, env.strayRead list.acqs, true, env.strayWrite list.acqs⟩
    let a := sis33FetchIoctl env access card list (env.stray list.acqs list.nAcqs)
    ⟨a.ret, a.actions, none⟩

/-- The whole list could be translated. -/
def marshalled (env : Env) (list : CompatAcqList) : Bool :=
  env.access.listRead && env.scratchList list.nAcqs && (list.nAcqs = 0 || env.access.acqsRead)

/-- `sis33_compat_fetch_ioctl`.  Only a return value of zero leads to the copy back. -/
def compatFetchIoctl (env : Env) (card : Card) (list : CompatAcqList) (acqs : List CompatAcq) :
    Answer :=
  let asBefore := some (list.endtime, acqs.map CompatAcq.outputs)
  if ¬ marshalled env list then ⟨Errno.efault.ret, [], asBefore⟩
  else
    let a := sis33FetchIoctl env fullAccess card (list.widenAt env.scratch)
      (acqs.map CompatAcq.widen)
    if a.ret ≠ 0 then ⟨a.ret, a.actions, asBefore⟩
    else if ¬ env.access.listWrite then ⟨Errno.efault.ret, a.actions, asBefore⟩
    else if ¬ env.access.acqsWrite then
      ⟨Errno.efault.ret, a.actions, some (a.endtime.narrow, acqs.map CompatAcq.outputs)⟩
    else { a.report with ret := 0 }

/-- `sis33_compat_ioctl`. -/
def sis33CompatIoctl (env : Env) (card : Card) : CompatRequest → Answer
  | .acquire desc => compatAcquireIoctl env card desc
  | .fetch list acqs _ => compatFetchIoctl env card list acqs

/-- The native ioctl on the field-by-field translation of the request. -/
def sis33Ioctl (env : Env) (card : Card) : CompatRequest → Answer
  | .acquire desc => sis33AcqStartIoctl env card desc.widen
  | .fetch list acqs _ =>
    (sis33FetchIoctl env env.access card list.widen (acqs.map CompatAcq.widen)).report

/-! ### Where the two interfaces agree -/

/-- An `ACQUIRE` is right where its descriptor cannot be read, or where the native `ACQUIRE`
refuses it and the `FETCH` of its bytes is refused with the same error. -/
def AcquireMeets (env : Env) (card : Card) (desc : CompatAcqDesc) : Prop :=
  let list := desc.widen.asList env.leftover
  env.access.listRead = false ∨
    (env.scratchDesc = true ∧ ∃ e, acquireRefusal env card desc.widen = some e ∧
      fetchReady env (env.strayRead list.acqs) card list (env.stray list.acqs list.nAcqs) =
        .error e)

/-- The outputs of a transfer can be written and are what the request holds already. -/
def Unchanged (env : Env) (list : CompatAcqList) (acqs : List CompatAcq) (endtime : Timeval)
    (filled : List Acq) : Prop :=
  env.access.listWrite = true ∧ env.access.acqsWrite = true ∧ endtime.narrow = list.endtime ∧
    filled.map Acq.outputs = acqs.map CompatAcq.outputs

/-- A `FETCH` is right where its list cannot be read, where it is refused after its translation (or
refused for buffers that cannot be read), where its transfer fails, and where the transfer leaves
the outputs as they were. -/
def FetchMeets (env : Env) (card : Card) (list : CompatAcqList) (acqs : List CompatAcq) : Prop :=
  env.access.listRead = false ∨
    match fetchReady env env.access.acqsRead card list.widen (acqs.map CompatAcq.widen) with
    | .error e => marshalled env list = true ∨ e = Errno.efault.ret
    | .ok (nrEvents, endtime) =>
      marshalled env list = true ∧
        match fetchTransfer env card list.widen (acqs.map CompatAcq.widen) nrEvents with
        | .error _ => True
        | .ok filled => Unchanged env list acqs endtime filled

def CompatMeets (env : Env) (card : Card) : CompatRequest → Prop
  | .acquire desc => AcquireMeets env card desc
  | .fetch list acqs _ => FetchMeets env card list acqs

section Translation

theorem CompatTimeval.narrow_widen (tv : CompatTimeval) : tv.widen.narrow = tv := by
  have hword : ∀ x : BitVec 32, (x.signExtend 64).setWidth 32 = x := by
    intro x
    ext i hi
    simp only [BitVec.getElem_setWidth, BitVec.getLsbD_signExtend]
    rw [if_pos hi, BitVec.getLsbD_eq_getElem hi]
    simp only [decide_eq_true_eq, Bool.and_eq_right_iff_imp]
    omega
  simp only [widen, Timeval.narrow, hword]

theorem CompatAcq.outputs_widen (acqs : List CompatAcq) :
    (acqs.map widen).map Acq.outputs = acqs.map outputs := by
  rw [List.map_map]
  rfl

variable {env : Env} {card : Card} {list : AcqList} {acqs : List Acq} {read : Bool}

theorem fetchWait_error {e : ℤ} (h : fetchWait env card list = .error e) :
    ∃ err : Errno, e = err.ret := by
  rw [fetchWait] at h
  split at h
  · cases h
  · split at h
    · cases h
      exact ⟨.einval, rfl⟩
    · split at h
      · cases h
        exact ⟨.ebusy, rfl⟩
      · cases hw : env.wait (waitTimeout list.flags list.timeout) with
        | done =>
          rw [hw] at h
          dsimp only at h
          split at h
          · cases h
            exact ⟨.eintr, rfl⟩
          · cases h
        | interrupted =>
          rw [hw] at h
          cases h
          exact ⟨.eintr, rfl⟩
        | expired =>
          rw [hw] at h
          cases h
          exact ⟨.etime, rfl⟩

theorem fetchReady_error {e : ℤ} (h : fetchReady env read card list acqs = .error e) : e < 0 := by
  rw [fetchReady] at h
  split at h; · cases h; exact Errno.ret_neg _
  split at h; · cases h; exact Errno.ret_neg _
  split at h; · cases h; exact Errno.ret_neg _
  split at h; · cases h; exact Errno.ret_neg _
  split at h; · cases h; exact Errno.ret_neg _
  split at h; · cases h; exact Errno.ret_neg _
  split at h
  · rename_i hwait
    cases h
    obtain ⟨err, rfl⟩ := fetchWait_error hwait
    exact err.ret_neg
  · split at h
    · rename_i hmark
      cases h
      obtain ⟨err, rfl⟩ := Card.fetchMark_error hmark
      exact err.ret_neg
    · cases h

theorem fetchReady_ok {n : ℕ} {t : Timeval}
    (h : fetchReady env read card list acqs = .ok (n, t)) : read = true ∧ 0 < n := by
  rw [fetchReady] at h
  split at h; · cases h
  split at h; · cases h
  split at h; · cases h
  split at h; · cases h
  rename_i hread
  split at h; · cases h
  split at h; · cases h
  split at h; · cases h
  split at h; · cases h
  rename_i hmark
  cases h
  exact ⟨by simpa using hread, Card.fetchMark_pos hmark⟩

theorem acquireRefusal_ne_efault {desc : AcqDesc} :
    acquireRefusal env card desc ≠ some Errno.efault.ret := by
  intro h
  rw [acquireRefusal] at h
  split at h
  · cases h
  · split at h
    · cases h
    · split at h
      · rename_i e he
        rcases Card.acqStartLocked_error he with rfl | rfl
        · cases h
        · cases h
      · cases h

theorem acqStart_refused {desc : AcqDesc} {e : ℤ} (hread : env.access.listRead = true)
    (h : acquireRefusal env card desc = some e) :
    sis33AcqStartIoctl env card desc = ⟨e, [], none⟩ := by
  rw [sis33AcqStartIoctl, if_neg (by simp [hread]), h]

theorem acqStart_actions {desc : AcqDesc} (hread : env.access.listRead = true)
    (h : acquireRefusal env card desc = none) :
    ∃ rest, (sis33AcqStartIoctl env card desc).actions = .confEv desc :: rest := by
  rw [sis33AcqStartIoctl, if_neg (by simp [hread]), h]
  dsimp only
  split
  · exact ⟨_, rfl⟩
  · split
    · exact ⟨_, rfl⟩
    · split
      · exact ⟨_, rfl⟩
      · split
        · exact ⟨_, rfl⟩
        · exact ⟨_, rfl⟩

theorem fetch_actions {access : Access} {n : ℕ} {t : Timeval} (hread : access.listRead = true)
    (h : fetchReady env access.acqsRead card list acqs = .ok (n, t)) :
    (sis33FetchIoctl env access card list acqs).actions =
      [.fetch list.segment.toNat list.channel.toNat acqs n] := by
  rw [sis33FetchIoctl, if_neg (by simp [hread]), h]
  dsimp only
  split
  · rfl
  · split
    · rfl
    · split
      · rfl
      · rfl

theorem fetch_refused {access : Access} {e : ℤ} (hread : access.listRead = true)
    (h : fetchReady env access.acqsRead card list acqs = .error e) :
    sis33FetchIoctl env access card list acqs = ⟨e, [], list.endtime, acqs⟩ := by
  rw [sis33FetchIoctl, if_neg (by simp [hread]), h]

theorem fetchReady_marshalled {list : CompatAcqList} (h : marshalled env list = true) :
    fetchReady env true card (list.widenAt env.scratch) acqs =
      fetchReady env env.access.acqsRead card list.widen acqs := by
  simp only [marshalled, Bool.and_eq_true, Bool.or_eq_true, decide_eq_true_eq] at h
  rcases h.2 with hnone | hread
  · have hzero : (list.widenAt env.scratch).nAcqs = 0 := hnone
    have hzero' : list.widen.nAcqs = 0 := hnone
    rw [fetchReady, fetchReady, if_pos hzero, if_pos hzero']
    rfl
  · rw [hread]
    rfl

end Translation

section Acquire

variable {env : Env} {card : Card} {desc : CompatAcqDesc}

theorem acqStart_eq_iff {desc : AcqDesc} {e : ℤ} (hread : env.access.listRead = true) :
    (⟨e, [], none⟩ : Answer) = sis33AcqStartIoctl env card desc ↔
      acquireRefusal env card desc = some e := by
  cases href : acquireRefusal env card desc with
  | none =>
    obtain ⟨rest, hrest⟩ := acqStart_actions hread href
    refine iff_of_false ?_ (by simp)
    intro heq
    rw [← heq] at hrest
    cases hrest
  | some e' =>
    rw [acqStart_refused hread href]
    constructor
    · intro heq
      cases heq
      rfl
    · intro heq
      cases heq
      rfl

theorem compatAcquire_ne_of_fetch {a : Answer} {segment channel n : ℕ} {acqs : List Acq}
    {desc : AcqDesc} (hread : env.access.listRead = true)
    (ha : a.actions = [.fetch segment channel acqs n]) : a ≠ sis33AcqStartIoctl env card desc := by
  intro heq
  rw [heq] at ha
  cases href : acquireRefusal env card desc with
  | none =>
    obtain ⟨rest, hrest⟩ := acqStart_actions hread href
    cases hrest.symm.trans ha
  | some e =>
    rw [acqStart_refused hread href] at ha
    cases ha

theorem compatAcquire_agrees_iff :
    compatAcquireIoctl env card desc = sis33AcqStartIoctl env card desc.widen ↔
      AcquireMeets env card desc := by
  cases hread : env.access.listRead with
  | false =>
    rw [compatAcquireIoctl, sis33AcqStartIoctl, if_pos (by simp [hread]), if_pos (by simp [hread])]
    exact iff_of_true rfl (Or.inl hread)
  | true =>
    have hmeets : AcquireMeets env card desc ↔ env.scratchDesc = true ∧ ∃ e,
        acquireRefusal env card desc.widen = some e ∧
          fetchReady env (env.strayRead (desc.widen.asList env.leftover).acqs) card
            (desc.widen.asList env.leftover)
            (env.stray (desc.widen.asList env.leftover).acqs
              (desc.widen.asList env.leftover).nAcqs) = .error e := by
      rw [AcquireMeets, hread]
      exact or_iff_right Bool.noConfusion
    rw [hmeets]
    cases hscratch : env.scratchDesc with
    | false =>
      rw [compatAcquireIoctl, if_pos (by simp [hscratch]), acqStart_eq_iff hread]
      exact iff_of_false acquireRefusal_ne_efault fun h => Bool.noConfusion h.1
    | true =>
      rw [compatAcquireIoctl, if_neg (by simp [hread, hscratch])]
      dsimp only
      set list := desc.widen.asList env.leftover
      cases hready : fetchReady env (env.strayRead list.acqs) card list
          (env.stray list.acqs list.nAcqs) with
      | error e =>
        rw [fetch_refused rfl hready, acqStart_eq_iff hread]
        constructor
        · intro href
          exact ⟨rfl, e, href, rfl⟩
        · rintro ⟨-, e', href, he⟩
          cases he
          exact href
      | ok done =>
        refine iff_of_false ?_ ?_
        · exact compatAcquire_ne_of_fetch hread (fetch_actions rfl hready)
        · rintro ⟨-, e, -, he⟩
          cases he

end Acquire

section Fetch

variable {env : Env} {card : Card} {list : CompatAcqList} {acqs : List CompatAcq}

theorem report_before (ret : ℤ) (actions : List CardAction) :
    (⟨ret, actions, list.widen.endtime, acqs.map CompatAcq.widen⟩ : FetchAnswer).report =
      ⟨ret, actions, some (list.endtime, acqs.map CompatAcq.outputs)⟩ := by
  rw [FetchAnswer.report]
  dsimp only
  rw [CompatAcq.outputs_widen]
  exact congrArg (fun t => (⟨ret, actions, some (t, acqs.map CompatAcq.outputs)⟩ : Answer))
    list.endtime.narrow_widen

theorem fetch_of_transfer_error {access : Access} {list : AcqList} {acqs : List Acq} {n : ℕ}
    {t : Timeval} {e : {e : ℤ // e < 0}} (hread : access.listRead = true)
    (hready : fetchReady env access.acqsRead card list acqs = .ok (n, t))
    (htransfer : fetchTransfer env card list acqs n = .error e) :
    sis33FetchIoctl env access card list acqs =
      ⟨e.1, [.fetch list.segment.toNat list.channel.toNat acqs n], list.endtime, acqs⟩ := by
  rw [sis33FetchIoctl, if_neg (by simp [hread]), hready]
  dsimp only
  rw [htransfer]

theorem fetch_of_transfer_ok {access : Access} {list : AcqList} {acqs filled : List Acq} {n : ℕ}
    {t : Timeval} (hread : access.listRead = true)
    (hready : fetchReady env access.acqsRead card list acqs = .ok (n, t))
    (htransfer : fetchTransfer env card list acqs n = .ok filled) :
    sis33FetchIoctl env access card list acqs =
      let actions := [.fetch list.segment.toNat list.channel.toNat acqs n]
      if ¬ access.listWrite then ⟨Errno.efault.ret, actions, list.endtime, acqs⟩
      else if ¬ access.acqsWrite then ⟨Errno.efault.ret, actions, t, acqs⟩
      else ⟨n, actions, t, filled⟩ := by
  rw [sis33FetchIoctl, if_neg (by simp [hread]), hready]
  dsimp only
  rw [htransfer]

theorem compatFetch_of_not_marshalled (hm : marshalled env list = false) :
    compatFetchIoctl env card list acqs =
      ⟨Errno.efault.ret, [], some (list.endtime, acqs.map CompatAcq.outputs)⟩ := by
  rw [compatFetchIoctl]
  dsimp only
  rw [if_pos (by simp [hm])]

theorem compatFetch_of_ret_ne (hm : marshalled env list = true)
    {ret : ℤ} {actions : List CardAction} {t : Timeval} {filled : List Acq}
    (ha : sis33FetchIoctl env fullAccess card (list.widenAt env.scratch)
      (acqs.map CompatAcq.widen) = ⟨ret, actions, t, filled⟩) (hret : ret ≠ 0) :
    compatFetchIoctl env card list acqs =
      ⟨ret, actions, some (list.endtime, acqs.map CompatAcq.outputs)⟩ := by
  rw [compatFetchIoctl]
  dsimp only
  rw [if_neg (by simp [hm]), ha, if_pos hret]

theorem report_transfer_iff {n : ℕ} {t : Timeval} {filled : List Acq} {actions : List CardAction} :
    (⟨n, actions, some (list.endtime, acqs.map CompatAcq.outputs)⟩ : Answer) =
      (if ¬ env.access.listWrite then
          (⟨Errno.efault.ret, actions, list.widen.endtime, acqs.map CompatAcq.widen⟩ : FetchAnswer)
        else if ¬ env.access.acqsWrite then
          ⟨Errno.efault.ret, actions, t, acqs.map CompatAcq.widen⟩
        else ⟨n, actions, t, filled⟩).report ↔ Unchanged env list acqs t filled := by
  have hcount : (n : ℤ) ≠ Errno.efault.ret := by
    have := Errno.ret_neg .efault
    omega
  cases hlist : env.access.listWrite with
  | false =>
    refine iff_of_false ?_ fun h => ?_
    · intro heq
      exact hcount (congrArg Answer.ret heq)
    · cases hlist.symm.trans h.1
  | true =>
    cases hacqs : env.access.acqsWrite with
    | false =>
      refine iff_of_false ?_ fun h => ?_
      · intro heq
        exact hcount (congrArg Answer.ret heq)
      · cases hacqs.symm.trans h.2.1
    | true =>
      constructor
      · intro heq
        have hout := congrArg Answer.outputs heq
        simp only [FetchAnswer.report, not_true_eq_false, if_false, Option.some.injEq,
          Prod.mk.injEq] at hout
        exact ⟨hlist, hacqs, hout.1.symm, hout.2.symm⟩
      · rintro ⟨-, -, ht, hfilled⟩
        simp only [FetchAnswer.report, not_true_eq_false, if_false, ht, hfilled]

theorem compatFetch_agrees_iff :
    compatFetchIoctl env card list acqs =
      (sis33FetchIoctl env env.access card list.widen (acqs.map CompatAcq.widen)).report ↔
      FetchMeets env card list acqs := by
  cases hread : env.access.listRead with
  | false =>
    have hm : marshalled env list = false := by simp [marshalled, hread]
    rw [compatFetch_of_not_marshalled hm, sis33FetchIoctl.eq_def, if_pos (by simp [hread]),
      report_before]
    exact iff_of_true rfl (Or.inl hread)
  | true =>
    rw [FetchMeets, hread, or_iff_right Bool.noConfusion]
    cases hm : marshalled env list with
    | false =>
      rw [compatFetch_of_not_marshalled hm]
      cases hready : fetchReady env env.access.acqsRead card list.widen
          (acqs.map CompatAcq.widen) with
      | error e =>
        rw [fetch_refused hread hready, report_before]
        dsimp only
        rw [or_iff_right Bool.noConfusion, Answer.mk.injEq]
        exact ⟨fun h => h.1.symm, fun h => ⟨h.symm, rfl, rfl⟩⟩
      | ok done =>
        refine iff_of_false ?_ fun h => Bool.noConfusion h.1
        intro heq
        have hactions := fetch_actions hread hready
        have hsame := congrArg Answer.actions heq
        rw [FetchAnswer.report, hactions] at hsame
        cases hsame
    | true =>
      have hsame : fetchReady env true card (list.widenAt env.scratch) (acqs.map CompatAcq.widen) =
          _ := fetchReady_marshalled hm
      cases hready : fetchReady env env.access.acqsRead card list.widen
          (acqs.map CompatAcq.widen) with
      | error e =>
        rw [hready] at hsame
        rw [compatFetch_of_ret_ne hm (fetch_refused rfl hsame) (fetchReady_error hready).ne,
          fetch_refused hread hready, report_before]
        exact iff_of_true rfl (Or.inl rfl)
      | ok done =>
        obtain ⟨n, t⟩ := done
        rw [hready] at hsame
        obtain ⟨-, hpos⟩ := fetchReady_ok hready
        dsimp only
        rw [and_iff_right rfl]
        cases htransfer : fetchTransfer env card list.widen (acqs.map CompatAcq.widen) n with
        | error e =>
          rw [compatFetch_of_ret_ne hm (fetch_of_transfer_error rfl hsame htransfer) e.2.ne,
            fetch_of_transfer_error hread hready htransfer, report_before]
          exact iff_of_true rfl trivial
        | ok filled =>
          have hn : (n : ℤ) ≠ 0 := by omega
          rw [compatFetch_of_ret_ne hm (fetch_of_transfer_ok rfl hsame htransfer) hn,
            fetch_of_transfer_ok hread hready htransfer]
          exact report_transfer_iff

end Fetch

/-- **The 32-bit interface.**  For every card, every surrounding and every request, the answer of
`sis33_compat_ioctl` is the answer of the native ioctl to the translated request if and only if
the request meets `CompatMeets`. -/
theorem compat_agrees_iff (env : Env) (card : Card) (req : CompatRequest) :
    sis33CompatIoctl env card req = sis33Ioctl env card req ↔ CompatMeets env card req := by
  cases req with
  | acquire desc => exact compatAcquire_agrees_iff
  | fetch list acqs h => exact compatFetch_agrees_iff

/-- A card with one event of eight samples in its first segment. -/
def oneEventCard : Card :=
  { ops := ⟨true, true, true, true⟩
    maxNrEvents := 8
    nChannels := 2
    evLengths := [16, 8]
    nSegmentsMax := 2
    nSegmentsMin := 1
    nSegments := 2
    segments := fun _ => ⟨false, false, 8, 1, ⟨7, 0⟩⟩
    currSegment := 0 }

/-- All memory can be read and written, nothing fails, and a fetch reads eight samples a buffer. -/
def plainEnv : Env :=
  { access := fullAccess
    interrupted := false
    interruptedAgain := false
    kzalloc := fun _ => true
    wait := fun _ => .done
    afterWait := fun card => card
    confEv := 0
    fetch := fun _ _ acqs _ => .ok (acqs.map fun acq => { acq with nrSamples := 8 })
    scratchDesc := true
    scratchList := fun _ => true
    scratch := 0
    leftover := (0, ⟨0, 0⟩)
    stray := fun _ _ => []
    strayRead := fun _ => false
    strayWrite := fun _ => false }

/-- A plain `ACQUIRE` is refused as a `FETCH` of no buffers and the card is not touched; a plain
`FETCH` returns its count and the client finds its buffer as it was. -/
theorem compat_disagrees :
    sis33CompatIoctl plainEnv oneEventCard (.acquire ⟨0, 1, 8, 1, ⟨0, 0⟩⟩) ≠
        sis33Ioctl plainEnv oneEventCard (.acquire ⟨0, 1, 8, 1, ⟨0, 0⟩⟩) ∧
      sis33CompatIoctl plainEnv oneEventCard
          (.fetch ⟨0, 0, 1, 0, 0, ⟨0, 0⟩, ⟨0, 0⟩⟩ [⟨0, 16, 0, 0, 0, 0, 0⟩] rfl) ≠
        sis33Ioctl plainEnv oneEventCard
          (.fetch ⟨0, 0, 1, 0, 0, ⟨0, 0⟩, ⟨0, 0⟩⟩ [⟨0, 16, 0, 0, 0, 0, 0⟩] rfl) := by
  decide

end KernelModules.Sis33
