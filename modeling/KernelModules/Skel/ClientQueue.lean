import KernelModules.Cdcm.Semaphore
import KernelModules.Lib.Ring

/-!
# The event queue of a skeleton driver client

An interrupt puts a read buffer on the queue of a client and signals its semaphore; a read waits on
the semaphore and takes the oldest buffer off.  A read that times out empties the queue by clearing
its size, and one that finds queueing off resets queue and semaphore before it waits.

* `Queue` is `SkelDrvrQueue`, and `ClientContext` what a read uses of `SkelDrvrClientContext`, with
  the tasks that read for the client and what became of the buffers;
* `readStep` has one label for each critical section of a read, for an arrival and for the ioctls
  that change what a read looks at;
* `QueueLaws` are the laws of the queue, `Calm` the steps that keep them, and
  `queueLaws_of_reach` shows them for every run of such steps.
-/

namespace KernelModules.Skel

open Function KernelModules.Lib KernelModules.Cdcm

abbrev U32 := BitVec 32

/-! ### The queue -/

/-- `SkelDrvrQUEUE_SIZE`. -/
def queueSize : ℕ := 32

/-- `SkelDrvrConnection`. -/
structure Connection where
  module : U32
  conMask : U32
  deriving DecidableEq, Repr

/-- `SkelDrvrTime`. -/
structure Time where
  second : U32
  nanoSecond : U32
  deriving DecidableEq, Repr

/-- `SkelDrvrReadBuf`. -/
structure ReadBuf where
  connection : Connection
  time : Time
  deriving DecidableEq, Repr

/-- The buffer `__q_get` returns from an empty queue. -/
def ReadBuf.zero : ReadBuf := ⟨⟨0, 0⟩, ⟨0, 0⟩⟩

/-- The buffer with one bit in its mask, as `__fill_clients_queues` queues it. -/
def ReadBuf.forInterrupt (rb : ReadBuf) (j : Fin 32) : ReadBuf :=
  { rb with connection := { rb.connection with conMask := BitVec.twoPow 32 j } }

/-- `SkelDrvrQueue`; `Missed` is a `U16`. -/
structure Queue where
  queueOff : Bool
  missed : ℕ
  size : ℕ
  rdPntr : ℕ
  wrPntr : ℕ
  entries : ℕ → ReadBuf

namespace Queue

/-- The queued buffers, the oldest first. -/
def contents (q : Queue) : List ReadBuf := window q.entries queueSize q.rdPntr q.size

/-- The queue's part of `__q_put`: a full queue loses its oldest buffer. -/
def put (q : Queue) (rb : ReadBuf) : Queue :=
  let q' := { q with
    entries := update q.entries q.wrPntr rb
    wrPntr := (q.wrPntr + 1) % queueSize }
  if q.size < queueSize then { q' with size := q.size + 1 }
  else { q' with missed := (q.missed + 1) % 2 ^ 16, rdPntr := (q.rdPntr + 1) % queueSize }

/-- `__q_get`. -/
def get (q : Queue) : ReadBuf × Queue :=
  if 0 < q.size then
    (q.entries q.rdPntr, { q with rdPntr := (q.rdPntr + 1) % queueSize, size := q.size - 1 })
  else (ReadBuf.zero, q)

/-- The queue's part of `__reset_queue`. -/
def reset (q : Queue) : Queue := { q with size := 0, rdPntr := 0, wrPntr := 0, missed := 0 }

/-- What `client_timeout` does to the queue. -/
def timeout (q : Queue) : Queue := { q with size := 0, missed := 0 }

end Queue

/-! ### A client that reads -/

/-- What a read returns: a buffer, nothing with `ETIME`, or `EINTR`. -/
inductive ReadResult where
  | buffer (rb : ReadBuf)
  | etime
  | eintr
  deriving DecidableEq, Repr

def ReadResult.buffer? : ReadResult → Option ReadBuf
  | .buffer rb => some rb
  | .etime => none
  | .eintr => none

/-- How a buffer left the queue. -/
inductive Fate where
  | read
  | overwritten
  | flushed
  deriving DecidableEq, Repr

/-- Where a task is in `SkelDrvrRead`; `timed` says that it waits with the client's timeout. -/
inductive ReadPhase where
  | idle
  | begun
  | waiting (timed : Bool)
  | failed (timed : Bool)
  | woken
  deriving DecidableEq, Repr

def ReadPhase.isWaiting : ReadPhase → Bool
  | .waiting _ => true
  | _ => false

/-- The client context as a read uses it, the tasks, and the history: all buffers that were queued,
those that left in the order they left, what the reads returned, the buffers lost to overflow since
`Missed` was last cleared, and the calls of `__q_get` on an empty queue. -/
structure ClientContext (Task : Type*) where
  queue : Queue
  timeout : U32
  semaphore : Sem Task
  phase : Task → ReadPhase
  arrived : List ReadBuf
  left : List (ReadBuf × Fate)
  returned : List ReadResult
  lost : ℕ
  underflows : ℕ

namespace ClientContext

variable {Task : Type*} [DecidableEq Task]

/-- `client_init`: an empty queue, the semaphore reset and the default timeout. -/
def opened : ClientContext Task where
  queue := ⟨false, 0, 0, 0, 0, fun _ => ReadBuf.zero⟩
  timeout := 2000
  semaphore := (Sem.start 0).sreset
  phase _ := .idle
  arrived := []
  left := []
  returned := []
  lost := 0
  underflows := 0

def goto (s : ClientContext Task) (t : Task) (p : ReadPhase) : ClientContext Task :=
  { s with phase := update s.phase t p }

/-- A read of `t` is over. -/
def returns (s : ClientContext Task) (t : Task) (r : ReadResult) : ClientContext Task :=
  { s with returned := s.returned ++ [r] }.goto t .idle

/-- `q_put`. -/
def qPut (s : ClientContext Task) (rb : ReadBuf) : ClientContext Task :=
  let s' := { s with queue := s.queue.put rb, arrived := s.arrived ++ [rb] }
  if s.queue.size < queueSize then { s' with semaphore := s.semaphore.ssignal }
  else
    { s' with
      left := s.left ++ [(s.queue.entries s.queue.wrPntr, Fate.overwritten)]
      lost := s.lost + 1 }

/-- The buffers that a cleared queue loses. -/
def flushed (s : ClientContext Task) : List (ReadBuf × Fate) :=
  s.left ++ s.queue.contents.map fun e => (e, Fate.flushed)

/-- `__reset_queue`. -/
def resetQueue (s : ClientContext Task) : ClientContext Task :=
  { s with
    queue := s.queue.reset
    semaphore := s.semaphore.sreset
    left := s.flushed
    lost := 0 }

/-- The head of a read: with queueing off the queue is reset. -/
def start (s : ClientContext Task) (t : Task) : ClientContext Task :=
  (if s.queue.queueOff then s.resetQueue else s).goto t .begun

/-- Where the read goes after a section of its wait. -/
def waited (s : ClientContext Task) (t : Task) (sem : Sem Task) (timed : Bool) :
    ClientContext Task :=
  match sem.tasks t with
  | .running (some v) =>
    if v = lynxOk then { s with semaphore := sem }.goto t .woken
    else { s with semaphore := sem }.goto t (.failed timed)
  | _ => { s with semaphore := sem }.goto t (.waiting timed)

/-- The wait up to its first sleep.  The timeout is handed over as an `int`. -/
def wait (msecsToJiffies : ℤ → ℤ) (s : ClientContext Task) (t : Task) (signal : Bool) :
    ClientContext Task :=
  if s.timeout ≠ 0 then
    s.waited t (s.semaphore.tswait msecsToJiffies t .sigabort s.timeout.toInt signal) true
  else s.waited t (s.semaphore.swait t .sigabort signal) false

/-- `client_timeout`. -/
def clientTimeout (s : ClientContext Task) : ClientContext Task :=
  { s with queue := s.queue.timeout, left := s.flushed, lost := 0 }

/-- The end of a read whose wait failed. -/
def fail (s : ClientContext Task) (t : Task) (timed : Bool) : ClientContext Task :=
  (if timed then s.clientTimeout else s).returns t .eintr

/-- The end of a read: `q_get`, and a buffer without a mask counts as none. -/
def qGet (s : ClientContext Task) (t : Task) : ClientContext Task :=
  let rb := s.queue.get.1
  { s with
    queue := s.queue.get.2
    left := if 0 < s.queue.size then s.left ++ [(rb, Fate.read)] else s.left
    underflows := if 0 < s.queue.size then s.underflows else s.underflows + 1 }.returns t
      (if rb.connection.conMask = 0 then .etime else .buffer rb)

/-- `GET_QUEUE_OVERFLOW` reports the missed buffers and starts counting again. -/
def getQueueOverflow (s : ClientContext Task) : ClientContext Task :=
  { s with queue := { s.queue with missed := 0 }, lost := 0 }

end ClientContext

/-! ### The steps -/

/-- A section of a read, an arrival, or an ioctl of the client. -/
inductive ReadLabel (Task : Type*) where
  | deliver (rb : ReadBuf) (j : Fin 32)
  | start (t : Task)
  | wait (t : Task) (signal : Bool)
  | wake (t : Task) (left : ℤ) (signal : Bool)
  | fail (t : Task)
  | qGet (t : Task)
  | setTimeout (ticks : U32)
  | setQueueFlag (off : Bool)
  | getQueueOverflow
  deriving DecidableEq, Repr

section System

variable {Task : Type*} [DecidableEq Task]

/-- `none` where the task is not at that point. -/
def readStep (msecsToJiffies : ℤ → ℤ) (s : ClientContext Task) :
    ReadLabel Task → Option (ClientContext Task)
  | .deliver rb j => some (s.qPut (rb.forInterrupt j))
  | .start t => if s.phase t = .idle then some (s.start t) else none
  | .wait t signal =>
    if s.phase t = .begun then some (s.wait msecsToJiffies t signal) else none
  | .wake t left signal =>
    match s.phase t, s.semaphore.tasks t with
    | .waiting timed, .sleeping w =>
      some (s.waited t (s.semaphore.recheck t w left signal) timed)
    | _, _ => none
  | .fail t =>
    match s.phase t with
    | .failed timed => some (s.fail t timed)
    | _ => none
  | .qGet t => if s.phase t = .woken then some (s.qGet t) else none
  | .setTimeout ticks => some { s with timeout := ticks }
  | .setQueueFlag off => some { s with queue := { s.queue with queueOff := off } }
  | .getQueueOverflow => some s.getQueueOverflow

/-- Any interleaving of these steps on the context of a client that has just been opened. -/
def readSystem (Task : Type*) [DecidableEq Task] (msecsToJiffies : ℤ → ℤ) :
    System (ClientContext Task) (ReadLabel Task) :=
  System.ofFun (· = ClientContext.opened) (readStep msecsToJiffies)

end System

/-! ### The laws and the steps that keep them -/

section Laws

variable {Task : Type*}

/-- The buffers that a read took. -/
def readBuffer? : ReadBuf × Fate → Option ReadBuf
  | (rb, .read) => some rb
  | (_, .overwritten) => none
  | (_, .flushed) => none

/-- **The queue.**  The pointers are as far apart as `Size` says; what was queued is what left, in
order, and then what is still queued; the reads returned exactly the buffers that left by a read,
each once and the oldest first; `Missed` counts the overflows; and no read found the queue
empty. -/
structure QueueLaws (s : ClientContext Task) : Prop where
  size : s.queue.size ≤ queueSize
  pointers : ((s.queue.wrPntr : ℤ) - s.queue.rdPntr) % queueSize = s.queue.size % queueSize
  order : s.arrived = s.left.map Prod.fst ++ s.queue.contents
  reads : s.left.filterMap readBuffer? = s.returned.filterMap ReadResult.buffer?
  missed : s.queue.missed = s.lost
  underflows : s.underflows = 0

/-- The branches that go wrong are not taken: `Missed` does not wrap; the queue is not reset while
another read waits, or is between its wait and its buffer; and a read that timed out finds the queue
still empty when it clears the size. -/
def Calm (s : ClientContext Task) : ReadLabel Task → Prop
  | .deliver _ _ => s.queue.size = queueSize → s.queue.missed ≠ 2 ^ 16 - 1
  | .start _ =>
    s.queue.queueOff = true → ∀ u, (s.phase u).isWaiting = false ∧ s.phase u ≠ .woken
  | .fail t => s.phase t = .failed true → s.queue.size = 0
  | _ => True

instance [Fintype Task] (s : ClientContext Task) (a : ReadLabel Task) : Decidable (Calm s a) :=
  match a with
  | .deliver _ _ =>
    inferInstanceAs (Decidable (s.queue.size = queueSize → s.queue.missed ≠ 2 ^ 16 - 1))
  | .start _ => inferInstanceAs (Decidable
      (s.queue.queueOff = true → ∀ u, (s.phase u).isWaiting = false ∧ s.phase u ≠ .woken))
  | .fail t => inferInstanceAs (Decidable (s.phase t = .failed true → s.queue.size = 0))
  | .wait _ _ | .wake _ _ _ | .qGet _ | .setTimeout _ | .setQueueFlag _ | .getQueueOverflow =>
    inferInstanceAs (Decidable True)

/-! ### The ring -/

/-- The pointers are in the ring and as far apart as `Size` says. -/
structure Queue.Ring (q : Queue) : Prop where
  size : q.size ≤ queueSize
  rd : q.rdPntr < queueSize
  wr : q.wrPntr = (q.rdPntr + q.size) % queueSize

namespace Queue

variable {q : Queue}

theorem Ring.pointers (h : q.Ring) :
    ((q.wrPntr : ℤ) - q.rdPntr) % queueSize = q.size % queueSize := by
  have hsize := h.size
  have hrd := h.rd
  have hwr := h.wr
  simp only [queueSize] at hsize hrd hwr ⊢
  omega

theorem Ring.reset (q : Queue) : q.reset.Ring :=
  ⟨Nat.zero_le _, show 0 < queueSize by decide, rfl⟩

theorem Ring.put (h : q.Ring) (rb : ReadBuf) : (q.put rb).Ring := by
  have hpos : 0 < queueSize := by decide
  rw [Queue.put]
  split
  · rename_i hlt
    refine ⟨hlt, h.rd, ?_⟩
    show (q.wrPntr + 1) % queueSize = (q.rdPntr + (q.size + 1)) % queueSize
    rw [h.wr, Nat.mod_add_mod, Nat.add_assoc]
  · refine ⟨h.size, Nat.mod_lt _ hpos, ?_⟩
    show (q.wrPntr + 1) % queueSize = ((q.rdPntr + 1) % queueSize + q.size) % queueSize
    rw [h.wr, Nat.mod_add_mod, Nat.mod_add_mod, Nat.add_right_comm]

theorem Ring.get (h : q.Ring) : q.get.2.Ring := by
  rw [Queue.get]
  split
  · refine ⟨(Nat.sub_le _ _).trans h.size, Nat.mod_lt _ (by decide), ?_⟩
    show q.wrPntr = ((q.rdPntr + 1) % queueSize + (q.size - 1)) % queueSize
    rw [h.wr, Nat.mod_add_mod]
    congr 1
    omega
  · exact h

theorem contents_eq_cons (h : q.Ring) (hpos : 0 < q.size) :
    q.contents = q.get.1 :: q.get.2.contents := by
  obtain ⟨n, hn⟩ := Nat.exists_eq_succ_of_ne_zero hpos.ne'
  rw [Queue.get, if_pos hpos]
  simp only [Queue.contents, hn, Nat.succ_eq_add_one, Nat.add_sub_cancel]
  rw [window_succ, Nat.mod_eq_of_lt h.rd]

theorem contents_put (h : q.Ring) (rb : ReadBuf) (hlt : q.size < queueSize) :
    (q.put rb).contents = q.contents ++ [rb] := by
  simp only [Queue.put, if_pos hlt, Queue.contents, h.wr]
  exact window_push q.entries q.rdPntr rb hlt

theorem contents_put_full (h : q.Ring) (rb : ReadBuf) (hfull : q.size = queueSize) :
    q.contents ++ [rb] = q.entries q.wrPntr :: (q.put rb).contents := by
  have hwr : q.wrPntr = q.rdPntr := by
    rw [h.wr, hfull, Nat.add_mod_right, Nat.mod_eq_of_lt h.rd]
  have hcons : q.contents = q.entries q.wrPntr :: q.contents.tail := by
    rw [hwr, q.contents_eq_cons h (by rw [hfull]; decide), Queue.get,
      if_pos (by rw [hfull]; decide), List.tail_cons]
  have hput : (q.put rb).contents = q.contents.tail ++ [rb] := by
    have hover := window_overwrite q.entries q.rdPntr rb (show 0 < queueSize by decide)
    simp only [Queue.put, Queue.contents, h.wr, hfull]
    exact hover
  rw [hput, hcons, List.tail_cons, List.cons_append]

end Queue

/-! ### Tasks, semaphore and queue -/

/-- The task has a unit of the semaphore for which it has not yet taken a buffer. -/
def ClientContext.Holding (s : ClientContext Task) (t : Task) : Prop :=
  s.phase t = .woken ∨ s.semaphore.Picked .up t

/-- A task is at its wait exactly when it sleeps in the semaphore; its wait does not hide failures,
and no reset has woken it. -/
structure ClientContext.Linked (s : ClientContext Task) : Prop where
  sem : Sem.SemInv 0 s.semaphore
  waiting : ∀ t, (s.phase t).isWaiting = true ↔ ∃ w, s.semaphore.tasks t = .sleeping w
  sleeper : ∀ t w, s.semaphore.tasks t = .sleeping w → w.call ≠ .down ∧ w.up ≠ some .reset

/-- Every queued buffer has its unit, in the count or with a read under way. -/
def ClientContext.Agree (s : ClientContext Task) : Prop :=
  ∃ n, Counts s.Holding n ∧ s.semaphore.count.toNat + n = s.queue.size

/-- What became of the buffers; all of them have a mask. -/
structure ClientContext.History (s : ClientContext Task) : Prop where
  ring : s.queue.Ring
  order : s.arrived = s.left.map Prod.fst ++ s.queue.contents
  reads : s.left.filterMap readBuffer? = s.returned.filterMap ReadResult.buffer?
  missed : s.queue.missed = s.lost
  bound : s.queue.missed < 2 ^ 16
  underflows : s.underflows = 0
  masks : ∀ rb ∈ s.arrived, rb.connection.conMask ≠ 0

/-- What calm steps keep. -/
structure ClientContext.CalmInv (s : ClientContext Task) : Prop where
  linked : s.Linked
  agree : s.Agree
  history : s.History

namespace ClientContext

variable {s s' : ClientContext Task} {t : Task} {p : ReadPhase}

theorem CalmInv.laws (h : s.CalmInv) : QueueLaws s where
  size := h.history.ring.size
  pointers := h.history.ring.pointers
  order := h.history.order
  reads := h.history.reads
  missed := h.history.missed
  underflows := h.history.underflows

theorem Linked.running (h : s.Linked) (ht : (s.phase t).isWaiting = false) :
    ∃ last, s.semaphore.tasks t = .running last := by
  cases hs : s.semaphore.tasks t with
  | running last => exact ⟨last, rfl⟩
  | sleeping w =>
    have := (h.waiting t).2 ⟨w, hs⟩
    rw [ht] at this
    cases this

theorem Linked.not_picked (h : s.Linked) (ht : (s.phase t).isWaiting = false) (waker : Waker) :
    ¬ s.semaphore.Picked waker t := by
  obtain ⟨last, hlast⟩ := h.running ht
  exact Sem.not_picked_of_running hlast waker

theorem holding_congr (hphase : s'.phase t = s.phase t)
    (htasks : s'.semaphore.tasks t = s.semaphore.tasks t) : s'.Holding t ↔ s.Holding t := by
  rw [Holding, Holding, Sem.Picked, Sem.Picked, hphase, htasks]

variable [DecidableEq Task]

theorem holding_of_ne (hphase : s'.phase = update s.phase t p)
    (htasks : ∀ u, u ≠ t → s'.semaphore.tasks u = s.semaphore.tasks u) (u : Task) (hu : u ≠ t) :
    s'.Holding u ↔ s.Holding u :=
  holding_congr (by rw [hphase, update_of_ne hu]) (htasks u hu)

theorem Linked.goto (h : s.Linked) (hsem : s'.semaphore = s.semaphore)
    (hphase : s'.phase = update s.phase t p) (ht : (s.phase t).isWaiting = false)
    (hp : p.isWaiting = false) : s'.Linked where
  sem := by
    rw [hsem]
    exact h.sem
  waiting u := by
    rw [hphase, hsem]
    by_cases hu : u = t
    · subst hu
      rw [update_self, ← h.waiting u, hp, ht]
    · rw [update_of_ne hu]
      exact h.waiting u
  sleeper u w hw := h.sleeper u w (hsem ▸ hw)

theorem Linked.section (h : s.Linked) (hinv : Sem.SemInv 0 s'.semaphore)
    (hphase : s'.phase = update s.phase t p) {q : TaskPhase}
    (htasks : s'.semaphore.tasks = update s.semaphore.tasks t q)
    (hpq : p.isWaiting = true ↔ ∃ w, q = .sleeping w)
    (hq : ∀ w, q = .sleeping w → w.call ≠ .down ∧ w.up ≠ some .reset) : s'.Linked where
  sem := hinv
  waiting u := by
    rw [hphase, htasks]
    by_cases hu : u = t
    · subst hu
      rw [update_self, update_self]
      exact hpq
    · rw [update_of_ne hu, update_of_ne hu]
      exact h.waiting u
  sleeper u w hw := by
    rw [htasks] at hw
    by_cases hu : u = t
    · subst hu
      rw [update_self] at hw
      exact hq w hw
    · rw [update_of_ne hu] at hw
      exact h.sleeper u w hw

theorem Agree.goto (h : s.Agree) (hlinked : s.Linked) (hsize : s'.queue.size = s.queue.size)
    (hsem : s'.semaphore = s.semaphore) (hphase : s'.phase = update s.phase t p)
    (ht : (s.phase t).isWaiting = false ∧ s.phase t ≠ .woken) (hp : p ≠ .woken) : s'.Agree := by
  obtain ⟨n, hn, hsum⟩ := h
  have hpick := hlinked.not_picked ht.1 .up
  refine ⟨n, hn.congr fun u => ?_, by rw [hsem, hsize, hsum]⟩
  by_cases hu : u = t
  · subst hu
    refine iff_of_false ?_ fun hh => hh.elim ht.2 hpick
    rintro (hh | hh)
    · exact hp (by rw [← hh, hphase, update_self])
    · exact hpick (hsem ▸ hh)
  · exact holding_of_ne hphase (fun v _ => by rw [hsem]) u hu

/-! ### A section of the wait -/

/-- What a section of the wait of `t` does to its task and to the count. -/
inductive Waited (s s' : ClientContext Task) (t : Task) : Prop
  /-- it takes a unit from the count -/
  | took (hpick : ¬ s.semaphore.Picked .up t) (hpos : 0 < s.semaphore.count.toNat)
      (hcount : s'.semaphore.count = s.semaphore.count - 1)
      (htasks : s'.semaphore.tasks = update s.semaphore.tasks t (.running (some lynxOk)))
      (hphase : s'.phase = update s.phase t .woken)
  /-- it returns with the unit an up has given it -/
  | picked (hpick : s.semaphore.Picked .up t) (hcount : s'.semaphore.count = s.semaphore.count)
      (htasks : s'.semaphore.tasks = update s.semaphore.tasks t (.running (some lynxOk)))
      (hphase : s'.phase = update s.phase t .woken)
  /-- it fails or sleeps -/
  | without (hpick : ¬ s.semaphore.Picked .up t)
      (hcount : s'.semaphore.count = s.semaphore.count) {p : ReadPhase} {q : TaskPhase}
      (htasks : s'.semaphore.tasks = update s.semaphore.tasks t q)
      (hphase : s'.phase = update s.phase t p) (hp : p ≠ .woken)
      (hpq : p.isWaiting = true ↔ ∃ w, q = .sleeping w)
      (hq : ∀ w, q = .sleeping w → w.call ≠ .down ∧ w.up = none)

theorem waited_ok {sem : Sem Task} (hok : sem.tasks t = .running (some lynxOk)) (timed : Bool) :
    s.waited t sem timed = { s with semaphore := sem }.goto t .woken := by
  rw [waited, hok]
  rfl

theorem waited_fail {sem : Sem Task} {v : ℤ} (hv : v ≠ lynxOk)
    (hfail : sem.tasks t = .running (some v)) (timed : Bool) :
    s.waited t sem timed = { s with semaphore := sem }.goto t (.failed timed) := by
  rw [waited, hfail]
  exact if_neg hv

theorem waited_sleep {sem : Sem Task} {w : Waiter} (hw : sem.tasks t = .sleeping w)
    (timed : Bool) : s.waited t sem timed = { s with semaphore := sem }.goto t (.waiting timed) := by
  rw [waited, hw]

theorem waited_frame (s : ClientContext Task) (t : Task) (sem : Sem Task) (timed : Bool) :
    ∃ p, s.waited t sem timed = { s with semaphore := sem }.goto t p := by
  rw [waited]
  split
  · split
    · exact ⟨_, rfl⟩
    · exact ⟨_, rfl⟩
  · exact ⟨_, rfl⟩

theorem waited_cdcmDown (hlinked : s.Linked) (ht : (s.phase t).isWaiting = false)
    {call : DownCall} (hcall : call ≠ .down) (jiffies : ℤ) (signal timed : Bool) :
    Waited s (s.waited t (s.semaphore.cdcmDown t call jiffies signal) timed) t := by
  have hpick := hlinked.not_picked ht .up
  rcases Sem.cdcmDown_cases s.semaphore t call jiffies signal with
    ⟨hpos, heq⟩ | ⟨-, r, hr, heq⟩ | ⟨-, w, hw, hup, heq⟩
  · rw [Sem.result_ok] at heq
    rw [heq, waited_ok (update_self _ _ _)]
    exact .took hpick hpos rfl rfl rfl
  · rw [heq, waited_fail (Sem.result_ne_ok hcall hr) (update_self _ _ _)]
    exact .without hpick rfl rfl rfl (by simp) (by simp [ReadPhase.isWaiting]) (by simp)
  · rw [heq, waited_sleep (update_self _ _ _)]
    refine .without hpick rfl rfl rfl (by simp) (iff_of_true rfl ⟨w, rfl⟩) ?_
    intro w' hw'
    cases hw'
    exact ⟨hw ▸ hcall, hup⟩

theorem wait_eq (msecsToJiffies : ℤ → ℤ) (s : ClientContext Task) (t : Task) (signal : Bool) :
    ∃ call jiffies timed, call ≠ .down ∧ s.wait msecsToJiffies t signal =
      s.waited t (s.semaphore.cdcmDown t call jiffies signal) timed := by
  rw [wait]
  split
  · rename_i htimeout
    have hint : s.timeout.toInt ≠ 0 := by
      intro hzero
      exact htimeout (BitVec.toInt_inj.1 hzero)
    rw [Sem.tswait, if_neg hint]
    split
    · exact ⟨.downInterruptible, 0, true, by simp, rfl⟩
    · exact ⟨.downTimeout, _, true, by simp, rfl⟩
  · exact ⟨.downInterruptible, 0, false, by simp, rfl⟩

theorem waited_recheck (hlinked : s.Linked) {w : Waiter}
    (hw : s.semaphore.tasks t = .sleeping w) (left : ℤ) (signal timed : Bool) :
    Waited s (s.waited t (s.semaphore.recheck t w left signal) timed) t := by
  obtain ⟨hcall, hreset⟩ := hlinked.sleeper t w hw
  cases hup : w.up with
  | some waker =>
    rw [waited_ok (Sem.recheck_of_up hup left signal)]
    cases waker with
    | up =>
      refine .picked ⟨w, hw, hup⟩ ?_ ?_ rfl
      all_goals simp only [ClientContext.goto, Sem.recheck, hup, Sem.returns, Sem.result_ok]
    | reset => exact absurd hup hreset
  | none =>
    have hpick : ¬ s.semaphore.Picked .up t := Sem.not_picked_of_up hw (by simp [hup])
    rcases Sem.recheck_cases s.semaphore t hup left signal with
      ⟨r, hr, heq⟩ | ⟨w', hcall', hup', heq⟩
    · rw [heq, waited_fail (Sem.result_ne_ok hcall hr) (update_self _ _ _)]
      exact .without hpick rfl rfl rfl (by simp) (by simp [ReadPhase.isWaiting]) (by simp)
    · rw [heq, waited_sleep (update_self _ _ _)]
      refine .without hpick rfl rfl rfl (by simp) (iff_of_true rfl ⟨w', rfl⟩) ?_
      intro v hv
      cases hv
      exact ⟨hcall' ▸ hcall, hup'⟩

theorem Waited.linked (hw : Waited s s' t) (h : s.Linked)
    (hinv : Sem.SemInv 0 s'.semaphore) : s'.Linked := by
  cases hw with
  | took _ _ _ htasks hphase =>
    exact h.section hinv hphase htasks (by simp [ReadPhase.isWaiting]) (by simp)
  | picked _ _ htasks hphase =>
    exact h.section hinv hphase htasks (by simp [ReadPhase.isWaiting]) (by simp)
  | without _ _ htasks hphase _ hpq hq =>
    refine h.section hinv hphase htasks hpq fun w hw => ⟨(hq w hw).1, ?_⟩
    rw [(hq w hw).2]
    simp

theorem Waited.agree (hw : Waited s s' t) (hqueue : s'.queue = s.queue)
    (ht : s.phase t ≠ .woken) (h : s.Agree) : s'.Agree := by
  obtain ⟨n, hn, hsum⟩ := h
  rw [Agree, hqueue]
  cases hw with
  | took hpick hpos hcount htasks hphase =>
    have hsub := Sem.toNat_sub_one hpos
    refine ⟨n + 1, hn.enter (fun hh => hh.elim ht hpick)
      (Or.inl (by rw [hphase, update_self]))
      (holding_of_ne hphase fun u hu => Sem.tasks_of_ne htasks hu), ?_⟩
    rw [hcount]
    omega
  | picked hpick hcount htasks hphase =>
    refine ⟨n, hn.congr fun u => ?_, by rw [hcount]; exact hsum⟩
    by_cases hu : u = t
    · subst hu
      exact iff_of_true (Or.inl (by rw [hphase, update_self])) (Or.inr hpick)
    · exact holding_of_ne hphase (fun v hv => Sem.tasks_of_ne htasks hv) u hu
  | without hpick hcount htasks hphase hp hpq hq =>
    refine ⟨n, hn.congr fun u => ?_, by rw [hcount]; exact hsum⟩
    by_cases hu : u = t
    · subst hu
      refine iff_of_false ?_ fun hh => hh.elim ht hpick
      rintro (hh | ⟨w, hw, hup⟩)
      · exact hp (by rw [← hh, hphase, update_self])
      · rw [htasks, update_self] at hw
        rw [(hq w hw).2] at hup
        cases hup
    · exact holding_of_ne hphase (fun v hv => Sem.tasks_of_ne htasks hv) u hu

/-! ### An arrival -/

theorem Linked.ssignal (h : s.Linked) (hsem : s'.semaphore = s.semaphore.ssignal)
    (hphase : s'.phase = s.phase) : s'.Linked := by
  have hmarks : Sem.Marks .up s.semaphore s'.semaphore := hsem ▸ Sem.marks_cdcmUp s.semaphore
  refine ⟨hsem ▸ h.sem.cdcmUp, fun u => ?_, fun u w' hw' => ?_⟩
  · rw [hphase, h.waiting u]
    constructor
    · rintro ⟨w, hw⟩
      exact hmarks.asleep hw
    · rintro ⟨w', hw'⟩
      obtain ⟨w, hw, -⟩ := hmarks.sleeping hw'
      exact ⟨w, hw⟩
  · obtain ⟨w, hw, hcall, hup⟩ := hmarks.sleeping hw'
    obtain ⟨hdown, hreset⟩ := h.sleeper u w hw
    refine ⟨hcall ▸ hdown, ?_⟩
    rcases hup with hup | hup
    · rwa [hup]
    · rw [hup]
      simp

theorem Agree.ssignal (h : s.Agree) (hlinked : s.Linked) (hlt : s.queue.size < queueSize)
    (hsize : s'.queue.size = s.queue.size + 1) (hsem : s'.semaphore = s.semaphore.ssignal)
    (hphase : s'.phase = s.phase) : s'.Agree := by
  obtain ⟨n, hn, hsum⟩ := h
  have hlimit : s.semaphore.count.toNat < 32 := lt_of_le_of_lt (by omega) hlt
  rcases Sem.cdcmUp_cases hlinked.sem with ⟨-, hcount, htasks⟩ | ⟨u, hb, hcount, hpick, hother⟩
  · refine ⟨n, hn.congr fun v => holding_congr (by rw [hphase]) ?_, ?_⟩
    · rw [hsem, Sem.ssignal, htasks]
    · have hadd := Sem.toNat_add_one s.semaphore.count
      rw [if_neg (by omega)] at hadd
      rw [hsize, hsem, Sem.ssignal, hcount]
      omega
  · refine ⟨n + 1, hn.enter (t := u) ?_ ?_ ?_, ?_⟩
    · obtain ⟨w, hw, hup⟩ := hb
      have hwait := (hlinked.waiting u).2 ⟨w, hw⟩
      rintro (hh | hh)
      · rw [hh] at hwait
        cases hwait
      · exact Sem.not_picked_of_up hw (by simp [hup]) hh
    · exact Or.inr (by rw [hsem]; exact hpick)
    · intro v hv
      exact holding_congr (by rw [hphase]) (by rw [hsem]; exact hother v hv)
    · rw [hsize, hsem, Sem.ssignal, hcount]
      omega

theorem forInterrupt_conMask (rb : ReadBuf) (j : Fin 32) :
    (rb.forInterrupt j).connection.conMask ≠ 0 := by
  intro hzero
  have hbit : (BitVec.twoPow 32 j).getLsbD j = (0 : BitVec 32).getLsbD j := by
    rw [← hzero]
    rfl
  simp at hbit

theorem CalmInv.qPut (h : s.CalmInv) {rb : ReadBuf} (hmask : rb.connection.conMask ≠ 0)
    (hmissed : s.queue.size = queueSize → s.queue.missed ≠ 2 ^ 16 - 1) :
    (s.qPut rb).CalmInv := by
  obtain ⟨hlinked, hagree, hring, horder, hreads, hlost, hbound, hunder, hmasks⟩ := h
  have hmasks' : ∀ x ∈ s.arrived ++ [rb], x.connection.conMask ≠ 0 := by
    intro x hx
    rcases List.mem_append.1 hx with hx | hx
    · exact hmasks x hx
    · rw [List.mem_singleton.1 hx]
      exact hmask
  by_cases hlt : s.queue.size < queueSize
  · have hput : (s.queue.put rb).size = s.queue.size + 1 ∧
        (s.queue.put rb).missed = s.queue.missed := by
      rw [Queue.put, if_pos hlt]
      exact ⟨rfl, rfl⟩
    rw [ClientContext.qPut, if_pos hlt]
    refine ⟨hlinked.ssignal rfl rfl, hagree.ssignal hlinked hlt hput.1 rfl rfl, hring.put rb, ?_,
      hreads, hput.2.trans hlost, hput.2.trans_lt hbound, hunder, hmasks'⟩
    show s.arrived ++ [rb] = s.left.map Prod.fst ++ (s.queue.put rb).contents
    rw [Queue.contents_put hring rb hlt, ← List.append_assoc, ← horder]
  · have hfull : s.queue.size = queueSize := le_antisymm hring.size (not_lt.1 hlt)
    have hput : (s.queue.put rb).size = s.queue.size ∧
        (s.queue.put rb).missed = (s.queue.missed + 1) % 2 ^ 16 := by
      rw [Queue.put, if_neg hlt]
      exact ⟨rfl, rfl⟩
    have hne := hmissed hfull
    rw [ClientContext.qPut, if_neg hlt]
    refine ⟨⟨hlinked.sem, hlinked.waiting, hlinked.sleeper⟩, ?_, hring.put rb, ?_, ?_, ?_, ?_,
      hunder, hmasks'⟩
    · obtain ⟨n, hn, hsum⟩ := hagree
      exact ⟨n, hn, by rw [hput.1]; exact hsum⟩
    · show s.arrived ++ [rb] = _
      simp only [List.map_append, List.map_cons, List.map_nil, List.append_assoc,
        List.cons_append, List.nil_append]
      rw [horder, List.append_assoc, Queue.contents_put_full hring rb hfull]
    · show (s.left ++ [(_, Fate.overwritten)]).filterMap readBuffer? = _
      rw [List.filterMap_append]
      exact (List.append_nil _).trans hreads
    · show (s.queue.put rb).missed = s.lost + 1
      rw [hput.2, Nat.mod_eq_of_lt (by omega), hlost]
    · exact hput.2.trans_lt (Nat.mod_lt _ (by decide))

/-! ### The other steps -/

theorem returned_of_failed (l : List ReadResult) {r : ReadResult} (hr : r.buffer? = none) :
    (l ++ [r]).filterMap ReadResult.buffer? = l.filterMap ReadResult.buffer? := by
  simp [List.filterMap_append, hr]

omit [DecidableEq Task] in
theorem flushed_spec (h : s.History) :
    s.flushed.map Prod.fst = s.arrived ∧
    s.flushed.filterMap readBuffer? = s.returned.filterMap ReadResult.buffer? := by
  constructor
  · rw [flushed, List.map_append, List.map_map, h.order]
    congr 1
    exact List.map_id _
  · have hnone : (s.queue.contents.map fun e => (e, Fate.flushed)).filterMap readBuffer? = [] := by
      rw [List.filterMap_map]
      exact List.filterMap_eq_nil_iff.2 fun e _ => rfl
    rw [flushed, List.filterMap_append, hnone, List.append_nil]
    exact h.reads

theorem CalmInv.resetQueue (h : s.CalmInv)
    (hfree : ∀ u, (s.phase u).isWaiting = false ∧ s.phase u ≠ .woken) :
    s.resetQueue.CalmInv := by
  obtain ⟨hlinked, -, hhistory⟩ := h
  obtain ⟨hmap, hreads⟩ := flushed_spec hhistory
  have hnil : s.semaphore.waitList = [] := by
    refine List.eq_nil_iff_forall_not_mem.2 fun u hu => ?_
    obtain ⟨w, hw, -⟩ := (hlinked.sem.queue.exact u).1 hu
    obtain ⟨last, hlast⟩ := hlinked.running (hfree u).1
    rw [hw] at hlast
    cases hlast
  have htasks : s.resetQueue.semaphore.tasks = s.semaphore.tasks := Sem.tasks_sreset hnil
  refine ⟨⟨hlinked.sem.sreset, ?_, ?_⟩, ⟨0, ?_, ?_⟩, Queue.Ring.reset _, ?_, hreads, rfl, ?_,
    hhistory.underflows, hhistory.masks⟩
  · intro u
    rw [htasks]
    exact hlinked.waiting u
  · intro u w hw
    exact hlinked.sleeper u w (by rw [← htasks]; exact hw)
  · refine counts_zero fun u hh => ?_
    have hphase : s.resetQueue.phase u = s.phase u := rfl
    have hh' : s.Holding u := (holding_congr hphase (congrFun htasks u)).1 hh
    exact hh'.elim (hfree u).2 (hlinked.not_picked (hfree u).1 .up)
  · exact Sem.count_sreset s.semaphore
  · show s.arrived = s.flushed.map Prod.fst ++ []
    rw [hmap, List.append_nil]
  · exact show 0 < 2 ^ 16 by decide

theorem CalmInv.goto (h : s.CalmInv) (hqueue : s'.queue = s.queue)
    (hsem : s'.semaphore = s.semaphore) (hphase : s'.phase = update s.phase t p)
    (harr : s'.arrived = s.arrived) (hleft : s'.left = s.left)
    (hret : s'.returned.filterMap ReadResult.buffer? = s.returned.filterMap ReadResult.buffer?)
    (hlost : s'.lost = s.lost) (hunder : s'.underflows = s.underflows)
    (ht : (s.phase t).isWaiting = false ∧ s.phase t ≠ .woken)
    (hp : p.isWaiting = false ∧ p ≠ .woken) : s'.CalmInv := by
  obtain ⟨hlinked, hagree, hhistory⟩ := h
  refine ⟨hlinked.goto hsem hphase ht.1 hp.1,
    hagree.goto hlinked (by rw [hqueue]) hsem hphase ht hp.2, ?_⟩
  constructor
  · rw [hqueue]
    exact hhistory.ring
  · rw [harr, hleft, hqueue]
    exact hhistory.order
  · rw [hleft, hret]
    exact hhistory.reads
  · rw [hqueue, hlost]
    exact hhistory.missed
  · rw [hqueue]
    exact hhistory.bound
  · rw [hunder]
    exact hhistory.underflows
  · rw [harr]
    exact hhistory.masks

theorem CalmInv.start (h : s.CalmInv) (ht : s.phase t = .idle)
    (hcalm : Calm s (.start t)) : (s.start t).CalmInv := by
  rw [ClientContext.start]
  split
  · rename_i hoff
    exact (h.resetQueue (hcalm hoff)).goto rfl rfl rfl rfl rfl rfl rfl rfl (hcalm hoff t)
      (by simp [ReadPhase.isWaiting])
  · exact h.goto rfl rfl rfl rfl rfl rfl rfl rfl (by simp [ht, ReadPhase.isWaiting])
      (by simp [ReadPhase.isWaiting])

omit [DecidableEq Task] in
theorem CalmInv.clientTimeout (h : s.CalmInv) (hsize : s.queue.size = 0) :
    s.clientTimeout.CalmInv := by
  obtain ⟨hlinked, ⟨n, hn, hsum⟩, hhistory⟩ := h
  obtain ⟨hmap, hreads⟩ := flushed_spec hhistory
  refine ⟨⟨hlinked.sem, hlinked.waiting, hlinked.sleeper⟩, ⟨n, hn, ?_⟩, ⟨?_, ?_, ?_⟩, ?_, hreads,
    rfl, show 0 < 2 ^ 16 by decide, hhistory.underflows, hhistory.masks⟩
  · exact hsum.trans hsize
  · exact Nat.zero_le _
  · exact hhistory.ring.rd
  · show s.queue.wrPntr = (s.queue.rdPntr + 0) % queueSize
    rw [hhistory.ring.wr, hsize]
  · show s.arrived = s.flushed.map Prod.fst ++ []
    rw [hmap, List.append_nil]

theorem CalmInv.fail (h : s.CalmInv) {timed : Bool} (ht : s.phase t = .failed timed)
    (hcalm : Calm s (.fail t)) : (s.fail t timed).CalmInv := by
  have hout : (s.phase t).isWaiting = false ∧ s.phase t ≠ .woken := by
    simp [ht, ReadPhase.isWaiting]
  have hnone : (s.returned ++ [ReadResult.eintr]).filterMap ReadResult.buffer? =
      s.returned.filterMap ReadResult.buffer? := returned_of_failed s.returned rfl
  cases timed with
  | false =>
    exact h.goto rfl rfl rfl rfl rfl hnone rfl rfl hout (by simp [ReadPhase.isWaiting])
  | true =>
    exact (h.clientTimeout (hcalm ht)).goto rfl rfl rfl rfl rfl hnone rfl rfl hout
      (by simp [ReadPhase.isWaiting])

omit [DecidableEq Task] in
theorem CalmInv.oldest (h : s.CalmInv) (ht : s.phase t = .woken) :
    0 < s.queue.size ∧ s.queue.contents = s.queue.get.1 :: s.queue.get.2.contents ∧
    s.queue.get.1.connection.conMask ≠ 0 := by
  obtain ⟨-, ⟨n, hn, hsum⟩, hhistory⟩ := h
  have hpos : 0 < s.queue.size := by
    have := hn.pos (Or.inl ht)
    omega
  have hcons := Queue.contents_eq_cons hhistory.ring hpos
  refine ⟨hpos, hcons, hhistory.masks _ ?_⟩
  rw [hhistory.order, hcons]
  exact List.mem_append_right _ List.mem_cons_self

theorem CalmInv.qGet (h : s.CalmInv) (ht : s.phase t = .woken) : (s.qGet t).CalmInv := by
  obtain ⟨hpos, hcons, hmask⟩ := h.oldest ht
  obtain ⟨hlinked, ⟨n, hn, hsum⟩, hhistory⟩ := h
  have hhold : s.Holding t := Or.inl ht
  have hout : (s.phase t).isWaiting = false := by rw [ht]; rfl
  have hsize : s.queue.get.2.size = s.queue.size - 1 := by
    rw [Queue.get, if_pos hpos]
  have hmissed : s.queue.get.2.missed = s.queue.missed := by
    rw [Queue.get, if_pos hpos]
  have hphase : (s.qGet t).phase = update s.phase t .idle := rfl
  refine ⟨hlinked.goto rfl hphase hout rfl, ?_, hhistory.ring.get, ?_, ?_,
    hmissed.trans hhistory.missed, hmissed.trans_lt hhistory.bound, ?_, hhistory.masks⟩
  · obtain ⟨m, rfl⟩ := Nat.exists_eq_succ_of_ne_zero (hn.pos hhold).ne'
    refine ⟨m, hn.exit hhold ?_ (holding_of_ne hphase fun v _ => rfl), ?_⟩
    · rintro (hh | hh)
      · rw [hphase, update_self] at hh
        cases hh
      · exact hlinked.not_picked hout .up hh
    · show s.semaphore.count.toNat + m = s.queue.get.2.size
      omega
  · show s.arrived = (if 0 < s.queue.size then _ else _ : List _).map Prod.fst ++
      s.queue.get.2.contents
    rw [if_pos hpos, hhistory.order, hcons, List.map_append, List.append_assoc]
    rfl
  · show (if 0 < s.queue.size then _ else _ : List _).filterMap readBuffer? =
      (s.returned ++ [_]).filterMap _
    rw [if_pos hpos, if_neg hmask, List.filterMap_append, List.filterMap_append, hhistory.reads]
    rfl
  · show (if 0 < s.queue.size then s.underflows else _) = 0
    rw [if_pos hpos]
    exact hhistory.underflows

theorem CalmInv.waited (h : s.CalmInv) {sem : Sem Task} {timed : Bool}
    (hw : Waited s (s.waited t sem timed) t) (hsem : Sem.SemInv 0 sem) (ht : s.phase t ≠ .woken) :
    (s.waited t sem timed).CalmInv := by
  obtain ⟨p, hp⟩ := waited_frame s t sem timed
  rw [hp] at hw ⊢
  obtain ⟨hlinked, hagree, hhistory⟩ := h
  exact ⟨hw.linked hlinked hsem, hw.agree rfl ht hagree, hhistory.ring, hhistory.order,
    hhistory.reads, hhistory.missed, hhistory.bound, hhistory.underflows, hhistory.masks⟩

theorem CalmInv.step (h : s.CalmInv) {msecsToJiffies : ℤ → ℤ} {a : ReadLabel Task}
    (hcalm : Calm s a) (hs : readStep msecsToJiffies s a = some s') : s'.CalmInv := by
  cases a with
  | deliver rb j =>
    obtain rfl := Option.some.inj hs
    exact h.qPut (forInterrupt_conMask rb j) hcalm
  | start t =>
    rw [readStep] at hs
    split at hs
    · rename_i ht
      obtain rfl := Option.some.inj hs
      exact h.start ht hcalm
    · cases hs
  | wait t signal =>
    rw [readStep] at hs
    split at hs
    · rename_i ht
      obtain rfl := Option.some.inj hs
      have hout : (s.phase t).isWaiting = false := by rw [ht]; rfl
      obtain ⟨last, hlast⟩ := h.linked.running hout
      obtain ⟨call, jiffies, timed, hcall, heq⟩ := wait_eq msecsToJiffies s t signal
      rw [heq]
      exact h.waited (waited_cdcmDown h.linked hout hcall jiffies signal timed)
        (h.linked.sem.cdcmDown hlast call jiffies signal) (by simp [ht])
    · cases hs
  | wake t left signal =>
    rw [readStep] at hs
    split at hs
    · rename_i timed w ht hw
      obtain rfl := Option.some.inj hs
      exact h.waited (waited_recheck h.linked hw left signal timed)
        (h.linked.sem.recheck hw left signal) (by simp [ht])
    · cases hs
  | fail t =>
    rw [readStep] at hs
    split at hs
    · rename_i timed ht
      obtain rfl := Option.some.inj hs
      exact h.fail ht hcalm
    · cases hs
  | qGet t =>
    rw [readStep] at hs
    split at hs
    · rename_i ht
      obtain rfl := Option.some.inj hs
      exact h.qGet ht
    · cases hs
  | setTimeout ticks =>
    obtain rfl := Option.some.inj hs
    obtain ⟨hlinked, hagree, hhistory⟩ := h
    exact ⟨⟨hlinked.sem, hlinked.waiting, hlinked.sleeper⟩, hagree, hhistory.ring, hhistory.order,
      hhistory.reads, hhistory.missed, hhistory.bound, hhistory.underflows, hhistory.masks⟩
  | setQueueFlag off =>
    obtain rfl := Option.some.inj hs
    obtain ⟨hlinked, hagree, hhistory⟩ := h
    exact ⟨⟨hlinked.sem, hlinked.waiting, hlinked.sleeper⟩, hagree,
      ⟨hhistory.ring.size, hhistory.ring.rd, hhistory.ring.wr⟩, hhistory.order, hhistory.reads,
      hhistory.missed, hhistory.bound, hhistory.underflows, hhistory.masks⟩
  | getQueueOverflow =>
    obtain rfl := Option.some.inj hs
    obtain ⟨hlinked, hagree, hhistory⟩ := h
    exact ⟨⟨hlinked.sem, hlinked.waiting, hlinked.sleeper⟩, hagree,
      ⟨hhistory.ring.size, hhistory.ring.rd, hhistory.ring.wr⟩, hhistory.order, hhistory.reads, rfl,
      show 0 < 2 ^ 16 by decide, hhistory.underflows, hhistory.masks⟩

theorem calmInv_opened : (opened : ClientContext Task).CalmInv := by
  have hrunning : ∀ t, (opened : ClientContext Task).semaphore.tasks t = .running none :=
    fun _ => rfl
  refine ⟨⟨(Sem.semInv_start 0).sreset, ?_, ?_⟩, ⟨0, counts_zero ?_, rfl⟩, ⟨Nat.zero_le _, ?_, rfl⟩,
    rfl, rfl, rfl, show 0 < 2 ^ 16 by decide, rfl, ?_⟩
  · intro t
    rw [hrunning]
    exact iff_of_false (by simp [opened, ReadPhase.isWaiting]) (by simp)
  · intro t w hw
    rw [hrunning] at hw
    cases hw
  · rintro t (hh | hh)
    · cases hh
    · exact Sem.not_picked_of_running (hrunning t) .up hh
  · exact show 0 < queueSize by decide
  · intro rb hrb
    cases hrb

end ClientContext

/-! ### Whole runs -/

/-- **The queue over every calm run.**  The laws hold, and a read that reaches `__q_get` finds the
queue filled and returns the oldest buffer that was queued and has not left. -/
theorem queueLaws_of_reach [DecidableEq Task] (msecsToJiffies : ℤ → ℤ) (s : ClientContext Task)
    (h : (readSystem Task msecsToJiffies).ReachUnder Calm s) :
    QueueLaws s ∧ ∀ t, s.phase t = .woken → 0 < s.queue.size ∧
      ∃ rb, (s.arrived.drop s.left.length).head? = some rb ∧
        (s.qGet t).returned = s.returned ++ [.buffer rb] ∧
        (s.qGet t).left = s.left ++ [(rb, Fate.read)] := by
  have hinv : s.CalmInv := by
    refine h.invariant (P := ClientContext.CalmInv) ?_ ?_
    · intro s₀ hs₀
      exact hs₀ ▸ ClientContext.calmInv_opened
    · intro s₀ a s₁ hinv hcalm hs
      exact hinv.step hcalm hs
  refine ⟨hinv.laws, fun t ht => ?_⟩
  obtain ⟨hpos, hcons, hmask⟩ := hinv.oldest ht
  refine ⟨hpos, s.queue.get.1, ?_, ?_, ?_⟩
  · have hlen : s.left.length = (s.left.map Prod.fst).length := by simp
    rw [hinv.history.order, hcons, hlen, List.drop_left, List.head?_cons]
  · show s.returned ++ [if _ then _ else _] = _
    rw [if_neg hmask]
  · show (if 0 < s.queue.size then _ else _) = _
    rw [if_pos hpos]

end Laws

/-- A buffer of interrupt 3 is read, and the next read times out on the empty queue. -/
def quietRun : List (ReadLabel Unit) :=
  [.deliver ReadBuf.zero 3, .start (), .wait () false, .qGet (), .start (), .wait () false,
    .wake () 0 false, .fail ()]

theorem queueLaws_of_reach_quietRun :
    ∃ s : ClientContext Unit, (readSystem Unit fun m => m).ReachUnder Calm s ∧
      s.returned = [.buffer (ReadBuf.zero.forInterrupt 3), .eintr] ∧ QueueLaws s := by
  have hopened : (readSystem Unit fun m => m).ReachUnder Calm ClientContext.opened :=
    System.ReachUnder.init rfl
  let s : ClientContext Unit :=
    System.runUnder (readStep fun m => m) Calm ClientContext.opened quietRun
  have hs : (readSystem Unit fun m => m).ReachUnder Calm s :=
    System.ReachUnder.runUnder hopened _
  exact ⟨s, hs, by decide, (queueLaws_of_reach _ s hs).1⟩

/-- A read has timed out and a buffer arrives before its `client_timeout` clears the size: the
pointers stay apart, the unit stays in the semaphore, and the next read finds the queue empty. -/
theorem clientTimeout_breaks_queue :
    ¬ ∀ s : ClientContext Unit, (readSystem Unit fun m => m).Reach s → QueueLaws s := by
  intro hall
  have hrun : ∃ s : ClientContext Unit, System.runFun (readStep fun m => m) ClientContext.opened
      [.start (), .wait () false, .wake () 0 false, .deliver ReadBuf.zero 3, .fail (),
        .start (), .wait () false, .qGet ()] = some s ∧
      s.underflows = 1 ∧ s.queue.wrPntr = 1 ∧ s.queue.rdPntr = 0 ∧ s.queue.size = 0 :=
    ⟨_, rfl, by decide, by decide, by decide, by decide⟩
  obtain ⟨s, hs, hunder, -⟩ := hrun
  have hopened : (readSystem Unit fun m => m).Reach ClientContext.opened := System.Reach.init rfl
  have hlaws := hall s (System.Reach.runFun hopened _ hs)
  exact absurd (hunder.symm.trans hlaws.underflows) (by decide)

end KernelModules.Skel
