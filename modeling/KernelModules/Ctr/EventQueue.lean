import KernelModules.Cdcm.Semaphore
import KernelModules.Lib.Ring

/-!
# The event queue of a client and its semaphore

An interrupt puts an entry on the queue of every connected client and signals the client's
semaphore; a read waits on the semaphore and takes an entry off.  The queue's `Size` and the
semaphore's count are two counters of the same entries, changed at different points of the read,
and the callback of the read timer resets the semaphore whenever it runs.

* `Queue` is `CtrDrvrQueue`, and `ReadContext` the half of `CtrDrvrClientContext` a read uses, with
  the tasks that read for the client and what has happened to the entries;
* `readStep` has one label for each step of `CtrDrvrRead`, for the delivery of an entry, for
  `ReadTimeout` and for the ioctls that change what a read looks at;
* `QueueLaws` is what the two counters owe each other, and what became of every entry;
* `Tame` says of each step that it does not take one of the branches that go wrong.  The laws hold
  over every run of tame steps, and the first step that is not tame breaks them
  (`readSystem_laws`).
-/

namespace KernelModules.Ctr

open Function KernelModules.Lib KernelModules.Cdcm

/-! ### The queue -/

/-- `CtrDrvrQUEUE_SIZE`. -/
def queueSize : ℕ := 64

/-- `CtrDrvrQueue`; `Missed` is a `uint16_t`. -/
structure Queue (Ev : Type*) where
  queueOff : Bool
  missed : ℕ
  size : ℕ
  rdPntr : ℕ
  wrPntr : ℕ
  entries : ℕ → Ev

namespace Queue

variable {Ev : Type*}

/-- The queued entries, the oldest first. -/
def contents (q : Queue Ev) : List Ev := window q.entries queueSize q.rdPntr q.size

/-- The entry goes in; a full queue loses its oldest one. -/
def put (q : Queue Ev) (ev : Ev) : Queue Ev :=
  let q' := { q with
    entries := update q.entries q.wrPntr ev
    wrPntr := (q.wrPntr + 1) % queueSize }
  if q.size < queueSize then { q' with size := q.size + 1 }
  else { q' with missed := (q.missed + 1) % 2 ^ 16, rdPntr := (q.rdPntr + 1) % queueSize }

/-- The oldest entry comes out. -/
def get (q : Queue Ev) : Queue Ev :=
  { q with rdPntr := (q.rdPntr + 1) % queueSize, size := q.size - 1 }

/-- What a read does first when queueing is off. -/
def flush (q : Queue Ev) : Queue Ev :=
  { q with size := 0, missed := 0, wrPntr := 0, rdPntr := 0 }

end Queue

/-! ### A client that reads -/

/-- What a read returns: an entry, or nothing with `ETIME` or `EINTR`. -/
inductive ReadResult (Ev : Type*) where
  | entry (ev : Ev)
  | etime
  | eintr
  deriving DecidableEq, Repr

def ReadResult.entry? {Ev : Type*} : ReadResult Ev → Option Ev
  | .entry ev => some ev
  | .etime | .eintr => none

/-- How an entry left the queue. -/
inductive Fate where
  | read
  | overwritten
  | flushed
  deriving DecidableEq, Repr

/-- Where a task is in `CtrDrvrRead`.  `unit` says whether the wait ended with a unit of the
semaphore or because the semaphore was reset. -/
inductive ReadPhase where
  | idle
  | begun
  | armed (id : BitVec 32)
  | ready
  | waiting
  | interrupted
  | woken (unit : Bool)
  | checked (unit : Bool)
  deriving DecidableEq, Repr

/-- The client context as a read uses it, the slots of its pending timers, the tasks, and the
history: all entries that arrived, those that left in the order they left, what the reads
returned, and the overflows reported by `GET_QUEUE_OVERFLOW`. -/
structure ReadContext (Ev Task : Type*) where
  queue : Queue Ev
  timeout : BitVec 32
  timer : BitVec 32
  semaphore : Sem Task
  pending : List (BitVec 32)
  phase : Task → ReadPhase
  arrived : List Ev
  left : List (Ev × Fate)
  returned : List (ReadResult Ev)
  reported : ℕ

namespace ReadContext

variable {Ev Task : Type*} [DecidableEq Task]

/-- The context `CtrDrvrOpen` sets up, with the default timeout. -/
def opened [Inhabited Ev] : ReadContext Ev Task where
  queue := ⟨false, 0, 0, 0, 0, fun _ => default⟩
  timeout := 2000
  timer := 0
  semaphore := (Sem.start 0).sreset
  pending := []
  phase _ := .idle
  arrived := []
  left := []
  returned := []
  reported := 0

def goto (s : ReadContext Ev Task) (t : Task) (p : ReadPhase) : ReadContext Ev Task :=
  { s with phase := update s.phase t p }

@[simp] theorem goto_phase_self (s : ReadContext Ev Task) (t : Task) (p : ReadPhase) :
    (s.goto t p).phase t = p := by
  simp [goto]

/-- A read of `t` is over. -/
def returns (s : ReadContext Ev Task) (t : Task) (r : ReadResult Ev) : ReadContext Ev Task :=
  { s with returned := s.returned ++ [r] }.goto t .idle

/-- `CancelTimeout(&ccon->Timer)`. -/
def cancelTimeout (s : ReadContext Ev Task) : ReadContext Ev Task :=
  if s.timer = 0 then s else { s with timer := 0, pending := s.pending.erase s.timer }

/-- The queueing step of `IntrHandler` and `CtrDrvrWrite`. -/
def deliver (s : ReadContext Ev Task) (ev : Ev) : ReadContext Ev Task :=
  let s' := { s with queue := s.queue.put ev, arrived := s.arrived ++ [ev] }
  if s.queue.size < queueSize then { s' with semaphore := s.semaphore.ssignal }
  else
    { s' with left := s.left ++ [(s.queue.entries s.queue.wrPntr, Fate.overwritten)] }

/-- The head of a read: with queueing off, whatever is queued is thrown away. -/
def start (s : ReadContext Ev Task) (t : Task) : ReadContext Ev Task :=
  if s.queue.queueOff then
    { s with
      queue := s.queue.flush
      semaphore := s.semaphore.sreset
      left := s.left ++ s.queue.contents.map fun e => (e, Fate.flushed) }.goto t .begun
  else s.goto t .begun

/-- The call of `timeout`: a slot is armed, or none is free and the result is `SYSERR`. -/
def arm (s : ReadContext Ev Task) (t : Task) (slot : Option (BitVec 32)) : ReadContext Ev Task :=
  if s.timeout = 0 then s.goto t .ready
  else
    match slot with
    | some id => { s with pending := id :: s.pending }.goto t (.armed id)
    | none => s.goto t (.armed (-1))

/-- What `timeout` can find: no slot, or one of the sixteen that is not in use here. -/
def SlotFree (s : ReadContext Ev Task) : Option (BitVec 32) → Prop
  | none => True
  | some id => 1 ≤ id.toNat ∧ id.toNat ≤ 16 ∧ id ∉ s.pending

instance (s : ReadContext Ev Task) (slot : Option (BitVec 32)) : Decidable (s.SlotFree slot) :=
  match slot with
  | none => inferInstanceAs (Decidable True)
  | some id => inferInstanceAs (Decidable (1 ≤ id.toNat ∧ id.toNat ≤ 16 ∧ id ∉ s.pending))

/-- The result is stored.  `Timer` is unsigned, so the test for a negative result never holds. -/
def store (s : ReadContext Ev Task) (t : Task) (id : BitVec 32) : ReadContext Ev Task :=
  { s with timer := id }.goto t .ready

/-- Where the read goes after a section of its wait. -/
def waited (s : ReadContext Ev Task) (t : Task) (sem : Sem Task) (unit : Bool) :
    ReadContext Ev Task :=
  match sem.tasks t with
  | .running (some v) =>
    if v = lynxOk then { s with semaphore := sem }.goto t (.woken unit)
    else { s with semaphore := sem }.goto t .interrupted
  | _ => { s with semaphore := sem }.goto t .waiting

/-- The timer check: a cleared timer means that the read timed out. -/
def check (s : ReadContext Ev Task) (t : Task) (unit : Bool) : ReadContext Ev Task :=
  if s.timeout ≠ 0 then
    if s.timer ≠ 0 then s.cancelTimeout.goto t (.checked unit) else s.returns t .etime
  else s.goto t (.checked unit)

/-- The oldest entry is copied out. -/
def takeEntry (s : ReadContext Ev Task) (t : Task) : ReadContext Ev Task :=
  let ev := s.queue.entries s.queue.rdPntr
  { s with queue := s.queue.get, left := s.left ++ [(ev, Fate.read)] }.returns t (.entry ev)

/-- The end of a read: an entry, if there is one. -/
def dequeue (s : ReadContext Ev Task) (t : Task) : ReadContext Ev Task :=
  if s.queue.size ≠ 0 then s.takeEntry t else s.returns t .eintr

/-- `timer_callback` with `ReadTimeout`: the slot is free again, the timer cleared and the
semaphore reset. -/
def readTimeout (s : ReadContext Ev Task) (id : BitVec 32) : ReadContext Ev Task :=
  { s with pending := s.pending.erase id, timer := 0, semaphore := s.semaphore.sreset }

/-- `GET_QUEUE_OVERFLOW` reports the missed entries and starts counting again. -/
def getQueueOverflow (s : ReadContext Ev Task) : ReadContext Ev Task :=
  { s with queue := { s.queue with missed := 0 }, reported := s.reported + s.queue.missed }

end ReadContext

/-! ### The steps -/

/-- A step of a read, an arrival, a timeout, or an ioctl of the client. -/
inductive ReadLabel (Ev Task : Type*) where
  | deliver (ev : Ev)
  | start (t : Task)
  | arm (t : Task) (slot : Option (BitVec 32))
  | store (t : Task)
  | wait (t : Task) (signal : Bool)
  | wake (t : Task) (left : ℤ) (signal : Bool)
  | abort (t : Task)
  | check (t : Task)
  | dequeue (t : Task)
  | readTimeout (id : BitVec 32)
  | setTimeout (ticks : BitVec 32)
  | setQueueFlag (off : Bool)
  | getQueueOverflow
  deriving DecidableEq, Repr

section System

variable {Ev Task : Type*} [DecidableEq Task]

/-- `none` where the task is not at that point, the slot is taken or the timer is not pending. -/
def readStep (s : ReadContext Ev Task) : ReadLabel Ev Task → Option (ReadContext Ev Task)
  | .deliver ev => some (s.deliver ev)
  | .start t => if s.phase t = .idle then some (s.start t) else none
  | .arm t slot =>
    if s.phase t = .begun ∧ s.SlotFree slot then some (s.arm t slot) else none
  | .store t =>
    match s.phase t with
    | .armed id => some (s.store t id)
    | _ => none
  | .wait t signal =>
    if s.phase t = .ready then some (s.waited t (s.semaphore.swait t .sigabort signal) true)
    else none
  | .wake t left signal =>
    match s.semaphore.tasks t with
    | .sleeping w =>
      some (s.waited t (s.semaphore.recheck t w left signal) (w.up == some .up))
    | .running _ => none
  | .abort t =>
    if s.phase t = .interrupted then some (s.cancelTimeout.returns t .eintr) else none
  | .check t =>
    match s.phase t with
    | .woken unit => some (s.check t unit)
    | _ => none
  | .dequeue t =>
    match s.phase t with
    | .checked _ => some (s.dequeue t)
    | _ => none
  | .readTimeout id => if id ∈ s.pending then some (s.readTimeout id) else none
  | .setTimeout ticks => some { s with timeout := ticks }
  | .setQueueFlag off => some { s with queue := { s.queue with queueOff := off } }
  | .getQueueOverflow => some s.getQueueOverflow

/-- Any interleaving of these steps on the context of a client that has just been opened. -/
def readSystem [Inhabited Ev] : System (ReadContext Ev Task) (ReadLabel Ev Task) :=
  System.ofFun (· = ReadContext.opened) readStep

end System

/-! ### The laws and the steps that keep them -/

section Laws

variable {Ev Task : Type*}

/-- The task has a unit of the semaphore for which it has not yet taken an entry. -/
def ReadContext.Holding (s : ReadContext Ev Task) (t : Task) : Prop :=
  s.phase t = .woken true ∨ s.phase t = .checked true ∨ s.semaphore.Picked .up t

/-- Every queued entry has its unit, in the count or with a read under way. -/
def ReadContext.Agree (s : ReadContext Ev Task) : Prop :=
  ∃ n, Counts s.Holding n ∧ s.semaphore.count.toNat + n = s.queue.size

/-- The entries that a read took. -/
def readEntry? : Ev × Fate → Option Ev
  | (ev, .read) => some ev
  | (_, .overwritten) => none
  | (_, .flushed) => none

/-- **Queue and semaphore.**  Every queued entry has its unit; what arrived is what left, in order,
and then what is queued; the reads returned exactly the entries that left by a read; and the others
were overwritten and counted. -/
structure QueueLaws (s : ReadContext Ev Task) : Prop where
  agree : s.Agree
  order : s.arrived = s.left.map Prod.fst ++ s.queue.contents
  reads : s.left.filterMap readEntry? = s.returned.filterMap ReadResult.entry?
  kept : ∀ e ∈ s.left, e.2 ≠ .flushed
  missed : s.left.countP (fun e => e.2 == .overwritten) = s.reported + s.queue.missed

/-- The branches that go wrong are not taken: `ReadTimeout` throws no unit away; a read that has a
unit does not find its timer cleared; one that was woken by a reset finds no entry to take; no
entry and no overflow is flushed; and `Missed` does not wrap. -/
def Tame (s : ReadContext Ev Task) : ReadLabel Ev Task → Prop
  | .deliver _ => s.queue.size = queueSize → s.queue.missed ≠ 2 ^ 16 - 1
  | .start _ => s.queue.queueOff = true → s.queue.size = 0 ∧ s.queue.missed = 0
  | .check t => s.phase t = .woken true → s.timeout = 0 ∨ s.timer ≠ 0
  | .dequeue t => s.phase t = .checked false → s.queue.size = 0
  | .readTimeout _ => s.semaphore.count.toNat = 0
  | _ => True

instance (s : ReadContext Ev Task) (a : ReadLabel Ev Task) : Decidable (Tame s a) :=
  match a with
  | .deliver _ =>
    inferInstanceAs (Decidable (s.queue.size = queueSize → s.queue.missed ≠ 2 ^ 16 - 1))
  | .start _ => inferInstanceAs
      (Decidable (s.queue.queueOff = true → s.queue.size = 0 ∧ s.queue.missed = 0))
  | .check t =>
    inferInstanceAs (Decidable (s.phase t = .woken true → s.timeout = 0 ∨ s.timer ≠ 0))
  | .dequeue t => inferInstanceAs (Decidable (s.phase t = .checked false → s.queue.size = 0))
  | .readTimeout _ => inferInstanceAs (Decidable (s.semaphore.count.toNat = 0))
  | .arm _ _ | .store _ | .wait _ _ | .wake _ _ _ | .abort _ | .setTimeout _ | .setQueueFlag _
  | .getQueueOverflow => inferInstanceAs (Decidable True)

/-! ### The ring -/

/-- The pointers are in the ring and as far apart as `Size` says. -/
structure Queue.Ring (q : Queue Ev) : Prop where
  size : q.size ≤ queueSize
  rd : q.rdPntr < queueSize
  wr : q.wrPntr = (q.rdPntr + q.size) % queueSize

theorem Queue.Ring.flush (q : Queue Ev) : q.flush.Ring where
  size := Nat.zero_le _
  rd := show 0 < queueSize by decide
  wr := rfl

theorem Queue.Ring.put {q : Queue Ev} (h : q.Ring) (ev : Ev) : (q.put ev).Ring := by
  have hpos : 0 < queueSize := by decide
  rw [Queue.put]
  split
  · rename_i hlt
    refine ⟨hlt, h.rd, ?_⟩
    show (q.wrPntr + 1) % queueSize = (q.rdPntr + (q.size + 1)) % queueSize
    rw [h.wr, Nat.mod_add_mod, Nat.add_assoc]
  · refine ⟨h.size, Nat.mod_lt _ hpos, ?_⟩
    show (q.wrPntr + 1) % queueSize = ((q.rdPntr + 1) % queueSize + q.size) % queueSize
    rw [h.wr, Nat.mod_add_mod, Nat.mod_add_mod, Nat.add_right_comm]

theorem Queue.Ring.get {q : Queue Ev} (h : q.Ring) (hpos : 0 < q.size) : q.get.Ring := by
  refine ⟨(Nat.sub_le _ _).trans h.size, Nat.mod_lt _ (by decide), ?_⟩
  show q.wrPntr = ((q.rdPntr + 1) % queueSize + (q.size - 1)) % queueSize
  rw [h.wr, Nat.mod_add_mod]
  congr 1
  omega

theorem Queue.contents_put {q : Queue Ev} (h : q.Ring) (ev : Ev) (hlt : q.size < queueSize) :
    (q.put ev).contents = q.contents ++ [ev] := by
  simp only [Queue.put, if_pos hlt, Queue.contents, h.wr]
  exact window_push q.entries q.rdPntr ev hlt

theorem Queue.contents_eq_cons {q : Queue Ev} (h : q.Ring) (hpos : 0 < q.size) :
    q.contents = q.entries q.rdPntr :: q.get.contents := by
  obtain ⟨n, hn⟩ := Nat.exists_eq_succ_of_ne_zero hpos.ne'
  simp only [Queue.contents, Queue.get, hn, Nat.succ_eq_add_one, Nat.add_sub_cancel]
  rw [window_succ, Nat.mod_eq_of_lt h.rd]

theorem Queue.contents_put_full {q : Queue Ev} (h : q.Ring) (ev : Ev) (hfull : q.size = queueSize) :
    q.contents ++ [ev] = q.entries q.wrPntr :: (q.put ev).contents := by
  have hwr : q.wrPntr = q.rdPntr := by
    rw [h.wr, hfull, Nat.add_mod_right, Nat.mod_eq_of_lt h.rd]
  have hput : (q.put ev).contents = q.get.contents ++ [ev] := by
    have hover := window_overwrite q.entries q.rdPntr ev (show 0 < queueSize by decide)
    have hcons := q.contents_eq_cons h (by rw [hfull]; decide)
    simp only [Queue.contents, hfull] at hcons
    rw [hcons, List.tail_cons] at hover
    simp only [Queue.put, Queue.contents, h.wr, hfull]
    exact hover
  rw [hput, hwr, q.contents_eq_cons h (by rw [hfull]; decide), List.cons_append]

/-! ### Tasks and semaphore -/

/-- A task is at its wait exactly when it sleeps in the semaphore, and its sleep is
interruptible. -/
structure ReadContext.Linked (s : ReadContext Ev Task) : Prop where
  waiting : ∀ t, s.phase t = .waiting ↔ ∃ w, s.semaphore.tasks t = .sleeping w
  call : ∀ t w, s.semaphore.tasks t = .sleeping w → w.call = .downInterruptible

namespace ReadContext

variable {s s' : ReadContext Ev Task} {t : Task} {p : ReadPhase}

theorem Linked.running (h : s.Linked) (ht : s.phase t ≠ .waiting) :
    ∃ last, s.semaphore.tasks t = .running last := by
  cases hs : s.semaphore.tasks t with
  | running last => exact ⟨last, rfl⟩
  | sleeping w => exact absurd ((h.waiting t).2 ⟨w, hs⟩) ht

theorem Linked.goto [DecidableEq Task] (h : s.Linked) (hsem : s'.semaphore = s.semaphore)
    (hphase : s'.phase = update s.phase t p) (ht : s.phase t ≠ .waiting) (hp : p ≠ .waiting) :
    s'.Linked where
  waiting u := by
    rw [hphase, hsem]
    by_cases hu : u = t
    · subst hu
      rw [update_self]
      exact iff_of_false hp fun hw => ht ((h.waiting u).2 hw)
    · rw [update_of_ne hu]
      exact h.waiting u
  call u w hw := h.call u w (hsem ▸ hw)

theorem Linked.section [DecidableEq Task] (h : s.Linked)
    (hphase : s'.phase = update s.phase t p) {q : TaskPhase}
    (htasks : s'.semaphore.tasks = update s.semaphore.tasks t q)
    (hpq : p = .waiting ↔ ∃ w, q = .sleeping w)
    (hcall : ∀ w, q = .sleeping w → w.call = .downInterruptible) : s'.Linked where
  waiting u := by
    rw [hphase, htasks]
    by_cases hu : u = t
    · subst hu
      rw [update_self, update_self]
      exact hpq
    · rw [update_of_ne hu, update_of_ne hu]
      exact h.waiting u
  call u w hw := by
    rw [htasks] at hw
    by_cases hu : u = t
    · subst hu
      rw [update_self] at hw
      exact hcall w hw
    · rw [update_of_ne hu] at hw
      exact h.call u w hw

theorem Linked.marks (h : s.Linked) (hphase : s'.phase = s.phase) {waker : Waker}
    (hmarks : Sem.Marks waker s.semaphore s'.semaphore) : s'.Linked where
  waiting u := by
    rw [hphase, h.waiting u]
    constructor
    · rintro ⟨w, hw⟩
      exact hmarks.asleep hw
    · rintro ⟨w', hw'⟩
      obtain ⟨w, hw, -⟩ := hmarks.sleeping hw'
      exact ⟨w, hw⟩
  call u w' hw' := by
    obtain ⟨w, hw, hcall, -⟩ := hmarks.sleeping hw'
    exact hcall.trans (h.call u w hw)

/-! ### Who has a unit -/

theorem Linked.not_picked (h : s.Linked) (ht : s.phase t ≠ .waiting) :
    ¬ s.semaphore.Picked .up t := by
  rintro ⟨w, hw, -⟩
  exact ht ((h.waiting t).2 ⟨w, hw⟩)

theorem holding_congr (hphase : s'.phase t = s.phase t)
    (hpick : s'.semaphore.Picked .up t ↔ s.semaphore.Picked .up t) :
    s'.Holding t ↔ s.Holding t := by
  rw [Holding, Holding, hphase, hpick]

theorem holding_of_ne [DecidableEq Task] (hphase : s'.phase = update s.phase t p)
    (htasks : ∀ u, u ≠ t → s'.semaphore.tasks u = s.semaphore.tasks u) (u : Task) (hu : u ≠ t) :
    s'.Holding u ↔ s.Holding u := by
  refine holding_congr (by rw [hphase, update_of_ne hu]) ?_
  rw [Sem.Picked, Sem.Picked, htasks u hu]

/-! ### What every step keeps -/

/-- Ring, semaphore and tasks are in order, and `Missed` is a `uint16_t`. -/
structure Shape (s : ReadContext Ev Task) : Prop where
  sem : Sem.SemInv 0 s.semaphore
  ring : s.queue.Ring
  linked : s.Linked
  missed : s.queue.missed < 2 ^ 16

variable [DecidableEq Task]

theorem opened_running [Inhabited Ev] (t : Task) :
    (opened : ReadContext Ev Task).semaphore.tasks t = .running none := rfl

theorem shape_opened [Inhabited Ev] : Shape (opened : ReadContext Ev Task) where
  sem := (Sem.semInv_start 0).sreset
  ring := ⟨Nat.zero_le _, show 0 < queueSize by decide, rfl⟩
  linked := by
    constructor
    · intro t
      rw [opened_running]
      exact iff_of_false (by simp [opened]) (by simp)
    · intro t w hw
      rw [opened_running] at hw
      cases hw
  missed := show 0 < 2 ^ 16 by decide

theorem Shape.goto (h : s.Shape) (hqueue : s'.queue = s.queue)
    (hsem : s'.semaphore = s.semaphore) (hphase : s'.phase = update s.phase t p)
    (ht : s.phase t ≠ .waiting) (hp : p ≠ .waiting) : s'.Shape where
  sem := by
    rw [hsem]
    exact h.sem
  ring := by
    rw [hqueue]
    exact h.ring
  linked := h.linked.goto hsem hphase ht hp
  missed := by
    rw [hqueue]
    exact h.missed

omit [DecidableEq Task] in
theorem cancelTimeout_frame (s : ReadContext Ev Task) :
    s.cancelTimeout.queue = s.queue ∧ s.cancelTimeout.semaphore = s.semaphore ∧
    s.cancelTimeout.phase = s.phase ∧ s.cancelTimeout.arrived = s.arrived ∧
    s.cancelTimeout.left = s.left ∧ s.cancelTimeout.returned = s.returned ∧
    s.cancelTimeout.reported = s.reported := by
  rw [cancelTimeout]
  split
  · exact ⟨rfl, rfl, rfl, rfl, rfl, rfl, rfl⟩
  · exact ⟨rfl, rfl, rfl, rfl, rfl, rfl, rfl⟩

theorem arm_frame (s : ReadContext Ev Task) (t : Task) (slot : Option (BitVec 32)) :
    ∃ l p, s.arm t slot = { s with pending := l }.goto t p ∧
      (p = .ready ∨ ∃ id, p = .armed id) := by
  by_cases htimeout : s.timeout = 0
  · exact ⟨s.pending, .ready, by rw [arm.eq_def, if_pos htimeout], Or.inl rfl⟩
  · cases slot with
    | none => exact ⟨s.pending, .armed (-1), by rw [arm, if_neg htimeout], Or.inr ⟨_, rfl⟩⟩
    | some id =>
      exact ⟨id :: s.pending, .armed id, by rw [arm, if_neg htimeout], Or.inr ⟨_, rfl⟩⟩

/-! ### A section of the wait -/

/-- Where a task that waits is after a section. -/
inductive Waited (s s' : ReadContext Ev Task) (t : Task) : Prop
  /-- it takes a unit from the count -/
  | took (hpick : ¬ s.semaphore.Picked .up t) (hpos : 0 < s.semaphore.count.toNat)
      (hcount : s'.semaphore.count = s.semaphore.count - 1)
      (htasks : s'.semaphore.tasks = update s.semaphore.tasks t (.running (some lynxOk)))
      (hphase : s'.phase = update s.phase t (.woken true))
  /-- it returns with the unit an up has given it -/
  | picked (hpick : s.semaphore.Picked .up t) (hcount : s'.semaphore.count = s.semaphore.count)
      (htasks : s'.semaphore.tasks = update s.semaphore.tasks t (.running (some lynxOk)))
      (hphase : s'.phase = update s.phase t (.woken true))
  /-- it returns because of a reset, fails or sleeps -/
  | without (hpick : ¬ s.semaphore.Picked .up t)
      (hcount : s'.semaphore.count = s.semaphore.count) {p : ReadPhase} {q : TaskPhase}
      (htasks : s'.semaphore.tasks = update s.semaphore.tasks t q)
      (hphase : s'.phase = update s.phase t p) (hp : p ≠ .woken true ∧ p ≠ .checked true)
      (hpq : p = .waiting ↔ ∃ w, q = .sleeping w)
      (hq : ∀ w, q = .sleeping w → w.call = .downInterruptible ∧ w.up = none)

theorem waited_ok {sem : Sem Task} (hok : sem.tasks t = .running (some lynxOk)) (unit : Bool) :
    s.waited t sem unit = { s with semaphore := sem }.goto t (.woken unit) := by
  rw [waited, hok]
  rfl

theorem waited_err {sem : Sem Task} (herr : sem.tasks t = .running (some sysErr)) (unit : Bool) :
    s.waited t sem unit = { s with semaphore := sem }.goto t .interrupted := by
  rw [waited, herr]
  rfl

theorem waited_sleep {sem : Sem Task} {w : Waiter} (hw : sem.tasks t = .sleeping w)
    (unit : Bool) : s.waited t sem unit = { s with semaphore := sem }.goto t .waiting := by
  rw [waited, hw]

theorem waited_frame (s : ReadContext Ev Task) (t : Task) (sem : Sem Task) (unit : Bool) :
    ∃ p, s.waited t sem unit = { s with semaphore := sem }.goto t p := by
  rw [waited]
  split
  · split
    · exact ⟨_, rfl⟩
    · exact ⟨_, rfl⟩
  · exact ⟨_, rfl⟩

theorem waited_wait (h : s.Shape) (ht : s.phase t ≠ .waiting) (signal : Bool) :
    Waited s (s.waited t (s.semaphore.swait t .sigabort signal) true) t := by
  have hpick := h.linked.not_picked ht
  rcases Sem.swait_sigabort_cases s.semaphore t signal with
    ⟨hpos, heq⟩ | ⟨-, heq⟩ | ⟨-, w, hcall, hup, heq⟩
  · rw [heq, waited_ok (update_self _ _ _)]
    exact .took hpick hpos rfl rfl rfl
  · rw [heq, waited_err (update_self _ _ _)]
    exact .without hpick rfl rfl rfl (by simp) (by simp) (by simp)
  · rw [heq, waited_sleep (update_self _ _ _)]
    refine .without hpick rfl rfl rfl (by simp) (iff_of_true rfl ⟨w, rfl⟩) ?_
    intro w' hw'
    cases hw'
    exact ⟨hcall, hup⟩

theorem waited_wake (h : s.Shape) {w : Waiter} (hw : s.semaphore.tasks t = .sleeping w)
    (left : ℤ) (signal : Bool) :
    Waited s (s.waited t (s.semaphore.recheck t w left signal) (w.up == some .up)) t := by
  have hok : ∀ waker, w.up = some waker →
      (s.semaphore.recheck t w left signal).tasks t = .running (some lynxOk) :=
    fun waker hup => Sem.recheck_of_up hup left signal
  cases hup : w.up with
  | some waker =>
    rw [waited_ok (hok waker hup)]
    cases waker with
    | up =>
      refine .picked ⟨w, hw, hup⟩ ?_ ?_ rfl
      all_goals simp only [goto, Sem.recheck, hup, Sem.returns, Sem.result_ok]
    | reset =>
      refine .without (q := .running (some lynxOk)) (Sem.not_picked_of_up hw (by simp [hup]))
        ?_ ?_ rfl (by simp) (by simp) (by simp)
      all_goals simp only [goto, Sem.recheck, hup, Sem.returns, Sem.result_ok]
  | none =>
    have hpick : ¬ s.semaphore.Picked .up t :=
      Sem.not_picked_of_up hw (by simp [hup])
    rcases Sem.recheck_unmarked_cases s.semaphore t (h.linked.call t w hw) hup left signal with
      heq | ⟨w', hcall, hup', heq⟩
    · rw [heq, waited_err (update_self _ _ _)]
      exact .without hpick rfl rfl rfl (by simp) (by simp) (by simp)
    · rw [heq, waited_sleep (update_self _ _ _)]
      refine .without hpick rfl rfl rfl (by simp) (iff_of_true rfl ⟨w', rfl⟩) ?_
      intro v hv
      cases hv
      exact ⟨hcall, hup'⟩

theorem Waited.linked (hw : Waited s s' t) (h : s.Linked) : s'.Linked := by
  cases hw with
  | took _ _ _ htasks hphase => exact h.section hphase htasks (by simp) (by simp)
  | picked _ _ htasks hphase => exact h.section hphase htasks (by simp) (by simp)
  | without _ _ htasks hphase _ hpq hq =>
    exact h.section hphase htasks hpq fun w hw => (hq w hw).1

theorem Waited.agree (hw : Waited s s' t) (hqueue : s'.queue = s.queue)
    (ht : s.phase t ≠ .woken true ∧ s.phase t ≠ .checked true) (h : s.Agree) : s'.Agree := by
  obtain ⟨n, hn, hsum⟩ := h
  have hnot : ¬ s.semaphore.Picked .up t → ¬ s.Holding t := by
    rintro hpick (hp | hp | hp)
    · exact ht.1 hp
    · exact ht.2 hp
    · exact hpick hp
  rw [Agree, hqueue]
  cases hw with
  | took hpick hpos hcount htasks hphase =>
    have hsub := Sem.toNat_sub_one hpos
    refine ⟨n + 1, hn.enter (hnot hpick) (Or.inl (by rw [hphase, update_self]))
      (holding_of_ne hphase fun u hu => Sem.tasks_of_ne htasks hu), ?_⟩
    rw [hcount]
    omega
  | picked hpick hcount htasks hphase =>
    refine ⟨n, hn.congr fun u => ?_, by rw [hcount]; exact hsum⟩
    by_cases hu : u = t
    · subst hu
      exact iff_of_true (Or.inl (by rw [hphase, update_self])) (Or.inr (Or.inr hpick))
    · exact holding_of_ne hphase (fun v hv => Sem.tasks_of_ne htasks hv) u hu
  | without hpick hcount htasks hphase hp hpq hq =>
    refine ⟨n, hn.congr fun u => ?_, by rw [hcount]; exact hsum⟩
    by_cases hu : u = t
    · subst hu
      refine iff_of_false ?_ (hnot hpick)
      rintro (hh | hh | ⟨w, hw, hup⟩)
      · exact hp.1 (by rw [← hh, hphase, update_self])
      · exact hp.2 (by rw [← hh, hphase, update_self])
      · rw [htasks, update_self] at hw
        rw [(hq w hw).2] at hup
        cases hup
    · exact holding_of_ne hphase (fun v hv => Sem.tasks_of_ne htasks hv) u hu

/-! ### Every step keeps the shape -/

theorem Shape.deliver (h : s.Shape) (ev : Ev) : (s.deliver ev).Shape := by
  rw [ReadContext.deliver]
  split
  · rename_i hlt
    refine ⟨h.sem.cdcmUp, h.ring.put ev, ?_, ?_⟩
    · exact h.linked.marks rfl (Sem.marks_cdcmUp s.semaphore)
    · show (s.queue.put ev).missed < 2 ^ 16
      rw [Queue.put, if_pos hlt]
      exact h.missed
  · rename_i hfull
    refine ⟨h.sem, h.ring.put ev, ⟨h.linked.waiting, h.linked.call⟩, ?_⟩
    show (s.queue.put ev).missed < 2 ^ 16
    rw [Queue.put, if_neg hfull]
    exact Nat.mod_lt _ (by decide)

theorem Shape.sreset (h : s.Shape) (hsem : s'.semaphore = s.semaphore.sreset)
    (hphase : s'.phase = s.phase) (hring : s'.queue.Ring) (hmissed : s'.queue.missed < 2 ^ 16) :
    s'.Shape where
  sem := by
    rw [hsem]
    exact h.sem.sreset
  ring := hring
  linked := h.linked.marks hphase (hsem ▸ Sem.marks_sreset s.semaphore)
  missed := hmissed

theorem Shape.start (h : s.Shape) (ht : s.phase t = .idle) : (s.start t).Shape := by
  have hne : s.phase t ≠ .waiting := by
    rw [ht]
    simp
  rw [ReadContext.start]
  split
  · have hflush : Shape { s with
        queue := s.queue.flush
        semaphore := s.semaphore.sreset
        left := s.left ++ s.queue.contents.map fun e => (e, Fate.flushed) } :=
      h.sreset rfl rfl (Queue.Ring.flush _) (show 0 < 2 ^ 16 by decide)
    exact hflush.goto rfl rfl rfl hne (by simp)
  · exact h.goto rfl rfl rfl hne (by simp)

theorem Shape.dequeue (h : s.Shape) (ht : s.phase t ≠ .waiting) : (s.dequeue t).Shape := by
  rw [ReadContext.dequeue]
  split
  · rename_i hsize
    exact ⟨h.sem, h.ring.get (Nat.pos_of_ne_zero hsize), h.linked.goto rfl rfl ht (by simp),
      h.missed⟩
  · exact h.goto rfl rfl rfl ht (by simp)

theorem Shape.check (h : s.Shape) (ht : s.phase t ≠ .waiting) (unit : Bool) :
    (s.check t unit).Shape := by
  obtain ⟨hqueue, hsem, hphase, -⟩ := s.cancelTimeout_frame
  rw [ReadContext.check]
  split
  · split
    · refine h.goto hqueue hsem (t := t) (p := .checked unit) ?_ ht (by simp)
      show update s.cancelTimeout.phase t _ = _
      rw [hphase]
    · exact h.goto rfl rfl rfl ht (by simp)
  · exact h.goto rfl rfl rfl ht (by simp)

theorem Shape.step (h : s.Shape) {a : ReadLabel Ev Task} (hs : readStep s a = some s') :
    s'.Shape := by
  cases a with
  | deliver ev =>
    cases hs
    exact h.deliver ev
  | start t =>
    rw [readStep] at hs
    split at hs
    · rename_i ht
      cases hs
      exact h.start ht
    · cases hs
  | arm t slot =>
    rw [readStep] at hs
    split at hs
    · rename_i ht
      have hne : s.phase t ≠ .waiting := by
        rw [ht.1]
        simp
      obtain ⟨l, p, heq, hp⟩ := arm_frame s t slot
      cases hs
      rw [heq]
      refine h.goto rfl rfl rfl hne ?_
      rcases hp with rfl | ⟨id, rfl⟩
      · simp
      · simp
    · cases hs
  | store t =>
    rw [readStep] at hs
    split at hs
    · rename_i id ht
      cases hs
      exact h.goto rfl rfl rfl (by simp [ht]) (by simp)
    · cases hs
  | wait t signal =>
    rw [readStep] at hs
    split at hs
    · rename_i ht
      cases hs
      have hne : s.phase t ≠ .waiting := by
        rw [ht]
        simp
      obtain ⟨last, hlast⟩ := h.linked.running hne
      have hlinked := (waited_wait h hne signal).linked h.linked
      obtain ⟨p, hp⟩ := waited_frame s t (s.semaphore.swait t .sigabort signal) true
      rw [hp] at hlinked ⊢
      exact ⟨h.sem.swait hlast .sigabort signal, h.ring, hlinked, h.missed⟩
    · cases hs
  | wake t left signal =>
    rw [readStep] at hs
    split at hs
    · rename_i w hw
      cases hs
      have hlinked := (waited_wake h hw left signal).linked h.linked
      obtain ⟨p, hp⟩ :=
        waited_frame s t (s.semaphore.recheck t w left signal) (w.up == some .up)
      rw [hp] at hlinked ⊢
      exact ⟨h.sem.recheck hw left signal, h.ring, hlinked, h.missed⟩
    · cases hs
  | abort t =>
    rw [readStep] at hs
    split at hs
    · rename_i ht
      cases hs
      obtain ⟨hqueue, hsem, hphase, -⟩ := s.cancelTimeout_frame
      refine h.goto hqueue hsem (t := t) (p := .idle) ?_ (by simp [ht]) (by simp)
      show update s.cancelTimeout.phase t _ = _
      rw [hphase]
    · cases hs
  | check t =>
    rw [readStep] at hs
    split at hs
    · rename_i unit ht
      cases hs
      exact h.check (by simp [ht]) unit
    · cases hs
  | dequeue t =>
    rw [readStep] at hs
    split at hs
    · rename_i unit ht
      cases hs
      exact h.dequeue (by simp [ht])
    · cases hs
  | readTimeout id =>
    rw [readStep] at hs
    split at hs
    · cases hs
      exact h.sreset rfl rfl h.ring h.missed
    · cases hs
  | setTimeout ticks =>
    cases hs
    exact ⟨h.sem, h.ring, ⟨h.linked.waiting, h.linked.call⟩, h.missed⟩
  | setQueueFlag off =>
    cases hs
    exact ⟨h.sem, ⟨h.ring.size, h.ring.rd, h.ring.wr⟩, ⟨h.linked.waiting, h.linked.call⟩, h.missed⟩
  | getQueueOverflow =>
    cases hs
    exact ⟨h.sem, ⟨h.ring.size, h.ring.rd, h.ring.wr⟩, ⟨h.linked.waiting, h.linked.call⟩,
      show 0 < 2 ^ 16 by decide⟩

/-! ### Units, step by step -/

omit [DecidableEq Task] in
theorem agree_iff {n : ℕ} (hn : Counts s.Holding n) :
    s.Agree ↔ s.semaphore.count.toNat + n = s.queue.size := by
  refine ⟨?_, fun hsum => ⟨n, hn, hsum⟩⟩
  rintro ⟨m, hm, hsum⟩
  rwa [hn.unique hm]

theorem Agree.goto (h : s.Agree) (hlinked : s.Linked) (hsize : s'.queue.size = s.queue.size)
    (hsem : s'.semaphore = s.semaphore) (hphase : s'.phase = update s.phase t p)
    (ht : s.phase t ≠ .waiting ∧ s.phase t ≠ .woken true ∧ s.phase t ≠ .checked true)
    (hp : p ≠ .woken true ∧ p ≠ .checked true) : s'.Agree := by
  obtain ⟨n, hn, hsum⟩ := h
  have hpick := hlinked.not_picked ht.1
  refine ⟨n, hn.congr fun u => ?_, by rw [hsem, hsize, hsum]⟩
  by_cases hu : u = t
  · subst hu
    refine iff_of_false ?_ ?_
    · rintro (hh | hh | hh)
      · exact hp.1 (by rw [← hh, hphase, update_self])
      · exact hp.2 (by rw [← hh, hphase, update_self])
      · exact hpick (hsem ▸ hh)
    · rintro (hh | hh | hh)
      · exact ht.2.1 hh
      · exact ht.2.2 hh
      · exact hpick hh
  · exact holding_of_ne hphase (fun v _ => by rw [hsem]) u hu

theorem counts_sreset (hsem : Sem.SemInv 0 s.semaphore) {n : ℕ} (hn : Counts s.Holding n)
    (hs' : s'.semaphore = s.semaphore.sreset) (hphase : s'.phase = s.phase) :
    Counts s'.Holding n := by
  refine hn.congr fun u => holding_congr (by rw [hphase]) ?_
  rw [hs']
  exact Sem.picked_up_sreset hsem

theorem Agree.ssignal (h : s.Agree) (hshape : s.Shape) (hlt : s.queue.size < queueSize)
    (hsize : s'.queue.size = s.queue.size + 1) (hs' : s'.semaphore = s.semaphore.ssignal)
    (hphase : s'.phase = s.phase) : s'.Agree := by
  obtain ⟨n, hn, hsum⟩ := h
  have hlimit : s.semaphore.count.toNat < 64 := lt_of_le_of_lt (by omega) hlt
  rcases Sem.cdcmUp_cases hshape.sem with ⟨-, hcount, htasks⟩ | ⟨u, hb, hcount, hpick, hother⟩
  · refine ⟨n, hn.congr fun v => holding_congr (by rw [hphase]) ?_, ?_⟩
    · rw [hs', Sem.ssignal, Sem.Picked, Sem.Picked, htasks]
    · have hadd := Sem.toNat_add_one s.semaphore.count
      rw [if_neg (by omega)] at hadd
      rw [hsize, hs', Sem.ssignal, hcount]
      omega
  · refine ⟨n + 1, hn.enter (t := u) ?_ ?_ ?_, ?_⟩
    · obtain ⟨w, hw, hup⟩ := hb
      have hwait := (hshape.linked.waiting u).2 ⟨w, hw⟩
      rintro (hh | hh | hh)
      · rw [hwait] at hh
        cases hh
      · rw [hwait] at hh
        cases hh
      · exact Sem.not_picked_of_up hw (by simp [hup]) hh
    · exact Or.inr (Or.inr (by rw [hs']; exact hpick))
    · intro v hv
      refine holding_congr (by rw [hphase]) ?_
      rw [hs', Sem.ssignal, Sem.Picked, Sem.Picked, hother v hv]
    · rw [hsize, hs', Sem.ssignal, hcount]
      omega

theorem counts_release (hlinked : s.Linked) {n : ℕ} (hn : Counts s.Holding n)
    (s' : ReadContext Ev Task) (hsem : s'.semaphore = s.semaphore)
    (hphase : s'.phase = update s.phase t p)
    (ht : s.phase t = .woken true ∨ s.phase t = .checked true)
    (hp : p ≠ .woken true ∧ p ≠ .checked true) : ∃ m, n = m + 1 ∧ Counts s'.Holding m := by
  have hin : s.Holding t := ht.elim Or.inl fun h => Or.inr (Or.inl h)
  have hwait : s.phase t ≠ .waiting := by
    rcases ht with ht | ht
    · rw [ht]
      simp
    · rw [ht]
      simp
  obtain ⟨m, rfl⟩ := Nat.exists_eq_succ_of_ne_zero (hn.pos hin).ne'
  refine ⟨m, rfl, hn.exit hin ?_ (holding_of_ne hphase fun v _ => by rw [hsem])⟩
  rintro (hh | hh | hh)
  · exact hp.1 (by rw [← hh, hphase, update_self])
  · exact hp.2 (by rw [← hh, hphase, update_self])
  · exact hlinked.not_picked hwait (hsem ▸ hh)

theorem Agree.keep (h : s.Agree) (hsize : s'.queue.size = s.queue.size)
    (hsem : s'.semaphore = s.semaphore) {unit : Bool} (ht : s.phase t = .woken unit)
    (hphase : s'.phase = update s.phase t (.checked unit)) : s'.Agree := by
  obtain ⟨n, hn, hsum⟩ := h
  refine ⟨n, hn.congr fun u => ?_, by rw [hsem, hsize, hsum]⟩
  by_cases hu : u = t
  · subst hu
    rw [Holding, Holding, ht, hphase, update_self, hsem]
    cases unit with
    | true => exact iff_of_true (Or.inr (Or.inl rfl)) (Or.inl rfl)
    | false =>
      constructor
      · rintro (hh | hh | hh)
        · cases hh
        · cases hh
        · exact Or.inr (Or.inr hh)
      · rintro (hh | hh | hh)
        · cases hh
        · cases hh
        · exact Or.inr (Or.inr hh)
  · exact holding_of_ne hphase (fun v _ => by rw [hsem]) u hu

end ReadContext

/-! ### The laws, step by step -/

section Steps

open ReadContext

variable [DecidableEq Task] {s s' : ReadContext Ev Task} {t : Task}

omit [DecidableEq Task] in
theorem QueueLaws.of_agree (h : QueueLaws s) (hagree : s'.Agree) (hqueue : s'.queue = s.queue)
    (harr : s'.arrived = s.arrived) (hleft : s'.left = s.left)
    (hret : s'.returned.filterMap ReadResult.entry? = s.returned.filterMap ReadResult.entry?)
    (hrep : s'.reported = s.reported) : QueueLaws s' where
  agree := hagree
  order := by
    rw [harr, hleft, hqueue]
    exact h.order
  reads := by
    rw [hleft, hret]
    exact h.reads
  kept := by
    rw [hleft]
    exact h.kept
  missed := by
    rw [hleft, hrep, hqueue]
    exact h.missed

theorem returned_of_failed (l : List (ReadResult Ev)) {r : ReadResult Ev} (hr : r.entry? = none) :
    (l ++ [r]).filterMap ReadResult.entry? = l.filterMap ReadResult.entry? := by
  simp [List.filterMap_append, hr]

theorem QueueLaws.deliver_iff (h : QueueLaws s) (hshape : s.Shape) (ev : Ev) :
    QueueLaws (s.deliver ev) ↔ Tame s (.deliver ev) := by
  have hring := hshape.ring
  by_cases hlt : s.queue.size < queueSize
  · refine iff_of_true ?_ fun hfull => absurd hlt (by omega)
    have hput : (s.queue.put ev).size = s.queue.size + 1 ∧
        (s.queue.put ev).missed = s.queue.missed := by
      rw [Queue.put, if_pos hlt]
      exact ⟨rfl, rfl⟩
    rw [ReadContext.deliver, if_pos hlt]
    refine ⟨h.agree.ssignal hshape hlt hput.1 rfl rfl, ?_, h.reads, h.kept, ?_⟩
    · show s.arrived ++ [ev] = s.left.map Prod.fst ++ (s.queue.put ev).contents
      rw [Queue.contents_put hring ev hlt, ← List.append_assoc, ← h.order]
    · show _ = s.reported + (s.queue.put ev).missed
      rw [hput.2]
      exact h.missed
  · have hfull : s.queue.size = queueSize := le_antisymm hring.size (not_lt.1 hlt)
    have hput : (s.queue.put ev).size = s.queue.size ∧
        (s.queue.put ev).missed = (s.queue.missed + 1) % 2 ^ 16 := by
      rw [Queue.put, if_neg hlt]
      exact ⟨rfl, rfl⟩
    have hbound := hshape.missed
    have hmissed := h.missed
    rw [ReadContext.deliver, if_neg hlt]
    constructor
    · intro hlaws _ hmax
      have hcount := hlaws.missed
      simp only [List.countP_append, List.countP_singleton, hput.2, hmax] at hcount
      norm_num at hcount
      omega
    · intro htame
      have hne := htame hfull
      refine ⟨?_, ?_, ?_, ?_, ?_⟩
      · obtain ⟨n, hn, hsum⟩ := h.agree
        exact ⟨n, hn, by rw [hput.1]; exact hsum⟩
      · show s.arrived ++ [ev] = _
        simp only [List.map_append, List.map_cons, List.map_nil, List.append_assoc,
          List.cons_append, List.nil_append]
        rw [h.order, List.append_assoc, Queue.contents_put_full hring ev hfull]
      · show (s.left ++ [(_, Fate.overwritten)]).filterMap readEntry? = _
        rw [List.filterMap_append]
        exact (List.append_nil _).trans h.reads
      · intro e he
        rcases List.mem_append.1 he with he | he
        · exact h.kept e he
        · rw [List.mem_singleton.1 he]
          simp
      · simp only [List.countP_append, List.countP_singleton, hput.2]
        rw [hmissed, Nat.mod_eq_of_lt (by omega)]
        norm_num
        omega

theorem QueueLaws.start_iff (h : QueueLaws s) (hshape : s.Shape) (ht : s.phase t = .idle) :
    QueueLaws (s.start t) ↔ Tame s (.start t) := by
  have hne : s.phase t ≠ .waiting ∧ s.phase t ≠ .woken true ∧ s.phase t ≠ .checked true := by
    rw [ht]
    simp
  by_cases hoff : s.queue.queueOff = true
  · rw [ReadContext.start, if_pos hoff]
    constructor
    · intro hlaws _
      have hnil : s.queue.contents = [] := by
        cases hc : s.queue.contents with
        | nil => rfl
        | cons ev evs =>
          refine absurd rfl (hlaws.kept (ev, .flushed) ?_)
          simp [goto, hc]
      have hsize : s.queue.size = 0 := by
        rw [← length_window s.queue.entries queueSize s.queue.rdPntr s.queue.size]
        exact List.length_eq_zero_iff.2 hnil
      refine ⟨hsize, ?_⟩
      have hmissed := hlaws.missed
      have hcount : s.left.countP (fun e => e.2 == .overwritten) = s.reported + 0 := by
        simpa [goto, hnil, Queue.flush] using hmissed
      have := h.missed
      omega
    · intro htame
      obtain ⟨hsize, hmissed⟩ := htame hoff
      have hnil : s.queue.contents = [] := by
        rw [Queue.contents, hsize, window_zero]
      obtain ⟨n, hn, hsum⟩ := h.agree
      have hmid : ReadContext.Agree { s with
          queue := s.queue.flush
          semaphore := s.semaphore.sreset
          left := s.left ++ s.queue.contents.map fun e => (e, Fate.flushed) } := by
        refine ⟨n, counts_sreset hshape.sem hn rfl rfl, ?_⟩
        show s.semaphore.sreset.count.toNat + n = 0
        rw [Sem.count_sreset]
        omega
      have hlinked : ReadContext.Linked { s with
          queue := s.queue.flush
          semaphore := s.semaphore.sreset
          left := s.left ++ s.queue.contents.map fun e => (e, Fate.flushed) } :=
        hshape.linked.marks rfl (Sem.marks_sreset s.semaphore)
      refine ⟨hmid.goto hlinked rfl rfl rfl hne (by simp), ?_, ?_, ?_, ?_⟩
      · show s.arrived = (s.left ++ s.queue.contents.map _).map Prod.fst ++ []
        rw [hnil, List.map_nil, List.append_nil, List.append_nil, h.order, hnil, List.append_nil]
      · show (s.left ++ s.queue.contents.map _).filterMap readEntry? = _
        rw [hnil, List.map_nil, List.append_nil]
        exact h.reads
      · show ∀ e ∈ s.left ++ s.queue.contents.map _, e.2 ≠ _
        rw [hnil, List.map_nil, List.append_nil]
        exact h.kept
      · show (s.left ++ s.queue.contents.map _).countP _ = s.reported + 0
        rw [hnil, List.map_nil, List.append_nil, h.missed, hmissed]
  · rw [ReadContext.start, if_neg hoff]
    refine iff_of_true ?_ fun hon => absurd hon hoff
    refine h.of_agree ?_ rfl rfl rfl rfl rfl
    exact h.agree.goto hshape.linked rfl rfl rfl hne (by simp)

theorem QueueLaws.check_iff (h : QueueLaws s) (hshape : s.Shape) {unit : Bool}
    (ht : s.phase t = .woken unit) : QueueLaws (s.check t unit) ↔ Tame s (.check t) := by
  obtain ⟨hqueue, hsem, hphase, harr, hleft, hret, hrep⟩ := s.cancelTimeout_frame
  have htame : Tame s (.check t) ↔ (unit = true → s.timeout = 0 ∨ s.timer ≠ 0) := by
    rw [Tame, ht, ReadPhase.woken.injEq]
  rw [htame, ReadContext.check]
  split
  · rename_i htimeout
    split
    · rename_i htimer
      refine iff_of_true ?_ fun _ => Or.inr htimer
      refine h.of_agree ?_ hqueue harr hleft (by rw [← hret]; rfl) hrep
      refine h.agree.keep (by rw [← hqueue]; rfl) hsem ht ?_
      show update s.cancelTimeout.phase t _ = _
      rw [hphase]
    · rename_i htimer
      cases unit with
      | false =>
        refine iff_of_true ?_ (by simp)
        refine h.of_agree ?_ rfl rfl rfl (returned_of_failed s.returned rfl) rfl
        exact h.agree.goto (t := t) (p := .idle) hshape.linked rfl rfl rfl
          (by simp [ht]) (by simp)
      | true =>
        refine iff_of_false ?_ fun hok => (hok rfl).elim htimeout htimer
        intro hlaws
        obtain ⟨n, hn, hsum⟩ := h.agree
        obtain ⟨m, rfl, hm⟩ := counts_release (p := .idle) hshape.linked hn (s.returns t .etime)
          rfl rfl (Or.inl ht) (by simp)
        have hsum' : s.semaphore.count.toNat + m = s.queue.size := (agree_iff hm).1 hlaws.agree
        omega
  · rename_i htimeout
    refine iff_of_true ?_ fun _ => Or.inl (not_not.1 htimeout)
    exact h.of_agree (h.agree.keep rfl rfl ht rfl) rfl rfl rfl rfl rfl

theorem QueueLaws.takeEntry (h : QueueLaws s) (hshape : s.Shape) (hpos : 0 < s.queue.size)
    (hagree : (s.takeEntry t).Agree) : QueueLaws (s.takeEntry t) where
  agree := hagree
  order := by
    show s.arrived = (s.left ++ [(s.queue.entries s.queue.rdPntr, Fate.read)]).map Prod.fst ++
      s.queue.get.contents
    rw [h.order, Queue.contents_eq_cons hshape.ring hpos, List.map_append, List.append_assoc]
    rfl
  reads := by
    show (s.left ++ [(s.queue.entries s.queue.rdPntr, Fate.read)]).filterMap readEntry? =
      (s.returned ++ [ReadResult.entry (s.queue.entries s.queue.rdPntr)]).filterMap
        ReadResult.entry?
    rw [List.filterMap_append, List.filterMap_append, h.reads]
    rfl
  kept e he := by
    rcases List.mem_append.1 he with he | he
    · exact h.kept e he
    · rw [List.mem_singleton.1 he]
      simp
  missed := by
    show (s.left ++ [(s.queue.entries s.queue.rdPntr, Fate.read)]).countP _ =
      s.reported + s.queue.missed
    rw [List.countP_append, h.missed]
    rfl

theorem QueueLaws.dequeue_iff (h : QueueLaws s) (hshape : s.Shape) {unit : Bool}
    (ht : s.phase t = .checked unit) : QueueLaws (s.dequeue t) ↔ Tame s (.dequeue t) := by
  have htame : Tame s (.dequeue t) ↔ (unit = false → s.queue.size = 0) := by
    rw [Tame, ht, ReadPhase.checked.injEq]
  obtain ⟨n, hn, hsum⟩ := h.agree
  rw [htame, ReadContext.dequeue]
  split
  · rename_i hsize
    have hpos : 0 < s.queue.size := Nat.pos_of_ne_zero hsize
    cases unit with
    | true =>
      refine iff_of_true (h.takeEntry hshape hpos ?_) (by simp)
      obtain ⟨m, rfl, hm⟩ := counts_release (p := .idle) hshape.linked hn (s.takeEntry t) rfl rfl
        (Or.inr ht) (by simp)
      refine ⟨m, hm, ?_⟩
      show s.semaphore.count.toNat + m = s.queue.size - 1
      omega
    | false =>
      refine iff_of_false ?_ fun hok => hsize (hok rfl)
      intro hlaws
      have hwait : s.phase t ≠ .waiting := by
        rw [ht]
        simp
      obtain ⟨m, hm, hsum'⟩ := hlaws.agree
      have hnm : n = m := by
        refine hn.unique (hm.congr fun u => ?_)
        by_cases hu : u = t
        · subst hu
          refine iff_of_false ?_ ?_
          · rintro (hh | hh | hh)
            · rw [ht] at hh
              cases hh
            · rw [ht] at hh
              cases hh
            · exact hshape.linked.not_picked hwait hh
          · rintro (hh | hh | hh)
            · simp [ReadContext.takeEntry, ReadContext.returns, goto] at hh
            · simp [ReadContext.takeEntry, ReadContext.returns, goto] at hh
            · exact hshape.linked.not_picked hwait hh
        · have hphase : (s.takeEntry t).phase = update s.phase t .idle := rfl
          exact (holding_of_ne hphase (fun v _ => rfl) u hu).symm
      have hcount : s.semaphore.count.toNat + m = s.queue.size - 1 := hsum'
      omega
  · rename_i hsize
    have hzero : s.queue.size = 0 := not_not.1 hsize
    refine iff_of_true ?_ fun _ => hzero
    refine h.of_agree ?_ rfl rfl rfl (returned_of_failed s.returned rfl) rfl
    cases unit with
    | false =>
      exact h.agree.goto (t := t) (p := .idle) hshape.linked rfl rfl rfl
        (by simp [ht]) (by simp)
    | true =>
      have := hn.pos (t := t) (Or.inr (Or.inl ht))
      omega

theorem QueueLaws.readTimeout_iff (h : QueueLaws s) (hshape : s.Shape) (id : BitVec 32) :
    QueueLaws (s.readTimeout id) ↔ Tame s (.readTimeout id) := by
  obtain ⟨n, hn, hsum⟩ := h.agree
  have hn' : Counts (s.readTimeout id).Holding n := counts_sreset hshape.sem hn rfl rfl
  have hzero : (s.readTimeout id).semaphore.count.toNat = 0 := Sem.count_sreset s.semaphore
  have hiff : (s.readTimeout id).Agree ↔ s.semaphore.count.toNat = 0 := by
    rw [agree_iff hn', hzero]
    show 0 + n = s.queue.size ↔ _
    omega
  constructor
  · intro hlaws
    exact hiff.1 hlaws.agree
  · intro htame
    exact h.of_agree (hiff.2 htame) rfl rfl rfl rfl rfl

theorem QueueLaws.step_iff (h : QueueLaws s) (hshape : s.Shape) {a : ReadLabel Ev Task}
    (hs : readStep s a = some s') : QueueLaws s' ↔ Tame s a := by
  cases a with
  | deliver ev =>
    cases hs
    exact h.deliver_iff hshape ev
  | start t =>
    rw [readStep] at hs
    split at hs
    · rename_i ht
      cases hs
      exact h.start_iff hshape ht
    · cases hs
  | arm t slot =>
    rw [readStep] at hs
    split at hs
    · rename_i ht
      obtain ⟨l, p, heq, hp⟩ := arm_frame s t slot
      rw [Option.some.injEq, heq] at hs
      refine iff_of_true ?_ trivial
      subst hs
      refine h.of_agree ?_ rfl rfl rfl rfl rfl
      refine h.agree.goto hshape.linked rfl rfl rfl (by simp [ht.1]) ?_
      rcases hp with rfl | ⟨id, rfl⟩
      · simp
      · simp
    · cases hs
  | store t =>
    rw [readStep] at hs
    split at hs
    · rename_i id ht
      rw [Option.some.injEq] at hs
      refine iff_of_true ?_ trivial
      subst hs
      refine h.of_agree ?_ rfl rfl rfl rfl rfl
      exact h.agree.goto hshape.linked rfl rfl rfl (by simp [ht])
        (by simp)
    · cases hs
  | wait t signal =>
    rw [readStep] at hs
    split at hs
    · rename_i ht
      have hw := waited_wait hshape (t := t) (by simp [ht]) signal
      obtain ⟨p, hp⟩ := waited_frame s t (s.semaphore.swait t .sigabort signal) true
      rw [Option.some.injEq, hp] at hs
      rw [hp] at hw
      refine iff_of_true ?_ trivial
      subst hs
      refine h.of_agree ?_ rfl rfl rfl rfl rfl
      exact hw.agree rfl (by simp [ht]) h.agree
    · cases hs
  | wake t left signal =>
    rw [readStep] at hs
    split at hs
    · rename_i w hw
      have hphase := (hshape.linked.waiting t).2 ⟨w, hw⟩
      have hwait := waited_wake hshape hw left signal
      obtain ⟨p, hp⟩ :=
        waited_frame s t (s.semaphore.recheck t w left signal) (w.up == some .up)
      rw [Option.some.injEq, hp] at hs
      rw [hp] at hwait
      refine iff_of_true ?_ trivial
      subst hs
      refine h.of_agree ?_ rfl rfl rfl rfl rfl
      exact hwait.agree rfl (by simp [hphase]) h.agree
    · cases hs
  | abort t =>
    rw [readStep] at hs
    split at hs
    · rename_i ht
      obtain ⟨hqueue, hsem, hphase, harr, hleft, hret, hrep⟩ := s.cancelTimeout_frame
      rw [Option.some.injEq] at hs
      refine iff_of_true ?_ trivial
      subst hs
      refine h.of_agree ?_ hqueue harr hleft ?_ hrep
      · refine h.agree.goto (t := t) (p := .idle) hshape.linked (by rw [← hqueue]; rfl) hsem ?_
          (by simp [ht]) (by simp)
        show update s.cancelTimeout.phase t _ = _
        rw [hphase]
      · rw [← hret]
        exact returned_of_failed s.cancelTimeout.returned rfl
    · cases hs
  | check t =>
    rw [readStep] at hs
    split at hs
    · rename_i unit ht
      cases hs
      exact h.check_iff hshape ht
    · cases hs
  | dequeue t =>
    rw [readStep] at hs
    split at hs
    · rename_i unit ht
      cases hs
      exact h.dequeue_iff hshape ht
    · cases hs
  | readTimeout id =>
    rw [readStep] at hs
    split at hs
    · cases hs
      exact h.readTimeout_iff hshape id
    · cases hs
  | setTimeout ticks =>
    rw [readStep, Option.some.injEq] at hs
    refine iff_of_true ?_ trivial
    subst hs
    exact h.of_agree h.agree rfl rfl rfl rfl rfl
  | setQueueFlag off =>
    rw [readStep, Option.some.injEq] at hs
    exact iff_of_true (hs ▸ ⟨h.agree, h.order, h.reads, h.kept, h.missed⟩) trivial
  | getQueueOverflow =>
    rw [readStep, Option.some.injEq] at hs
    refine iff_of_true (hs ▸ ⟨h.agree, h.order, h.reads, h.kept, ?_⟩) trivial
    show _ = s.reported + s.queue.missed + 0
    exact h.missed

end Steps

/-! ### Whole runs -/

section Runs

variable [DecidableEq Task]

theorem queueLaws_opened [Inhabited Ev] :
    QueueLaws (ReadContext.opened : ReadContext Ev Task) where
  agree := ⟨0, counts_zero (by rintro t (hh | hh | ⟨w, hw, -⟩) <;> contradiction), rfl⟩
  order := rfl
  reads := rfl
  kept := by
    intro e he
    cases he
  missed := rfl

/-- **Queue and semaphore over every run.**  As long as the steps are tame the laws hold, and then
the count is `Size` whenever no read is under way; and the first step that is not tame breaks
them. -/
theorem readSystem_laws [Inhabited Ev] (s : ReadContext Ev Task)
    (h : readSystem.ReachUnder Tame s) :
    QueueLaws s ∧
    ((∀ t, s.phase t = .idle) → s.semaphore.count.toNat = s.queue.size) ∧
    ∀ a s', readStep s a = some s' → (QueueLaws s' ↔ Tame s a) := by
  have hinv : s.Shape ∧ QueueLaws s := by
    refine h.invariant (P := fun x => x.Shape ∧ QueueLaws x) ?_ ?_
    · intro s₀ hs₀
      exact hs₀ ▸ ⟨ReadContext.shape_opened, queueLaws_opened⟩
    · intro s₀ a s₁ hinv htame hs
      exact ⟨hinv.1.step hs, (hinv.2.step_iff hinv.1 hs).2 htame⟩
  obtain ⟨hshape, hlaws⟩ := hinv
  refine ⟨hlaws, ?_, fun a s' hs => hlaws.step_iff hshape hs⟩
  intro hidle
  obtain ⟨n, hn, hsum⟩ := hlaws.agree
  have hzero : n = 0 := by
    refine hn.unique (counts_zero fun t => ?_)
    have hne : s.phase t ≠ .waiting := by
      rw [hidle t]
      simp
    rintro (hh | hh | hh)
    · rw [hidle t] at hh
      cases hh
    · rw [hidle t] at hh
      cases hh
    · exact hshape.linked.not_picked hne hh
  rw [hzero] at hsum
  exact hsum

end Runs

end Laws

/-- One read takes an entry, the next one times out while it waits. -/
theorem readSystem_laws_run :
    ∃ s : ReadContext ℕ Unit, readSystem.ReachUnder Tame s ∧
      s.returned = [.entry 7, .etime] ∧ QueueLaws s := by
  have hopened : readSystem.ReachUnder Tame (ReadContext.opened : ReadContext ℕ Unit) :=
    System.ReachUnder.init rfl
  let s : ReadContext ℕ Unit := System.runUnder readStep Tame ReadContext.opened
    [.start (), .arm () (some 1), .store (), .wait () false, .deliver 7, .wake () 3 false,
      .check (), .dequeue (), .start (), .arm () (some 1), .store (), .wait () false,
      .readTimeout 1, .wake () 0 false, .check ()]
  have hs : readSystem.ReachUnder Tame s := System.ReachUnder.runUnder hopened _
  exact ⟨s, hs, by decide, (readSystem_laws s hs).1⟩

/-- An entry arrives after the timer has been started, and the timer expires before the read is at
its wait: the entry's unit is gone, and once a signal has ended the read the entry is stuck. -/
theorem readTimeout_strands_entry :
    ¬ ∀ s : ReadContext ℕ Unit, readSystem.Reach s →
      (∀ t, s.phase t = .idle) → s.semaphore.count.toNat = s.queue.size := by
  intro hall
  have hrun : ∃ s : ReadContext ℕ Unit, System.runFun readStep ReadContext.opened
      [.start (), .arm () (some 1), .store (), .deliver 7, .readTimeout 1, .wait () false,
        .wake () 3 true, .abort ()] = some s ∧ (∀ t, s.phase t = .idle) ∧
      s.semaphore.count.toNat = 0 ∧ s.queue.size = 1 :=
    ⟨_, rfl, by decide, by decide, by decide⟩
  obtain ⟨s, hs, hidle, hcount, hsize⟩ := hrun
  have hopened : readSystem.Reach (ReadContext.opened : ReadContext ℕ Unit) :=
    System.Reach.init rfl
  have heq := hall s (System.Reach.runFun hopened _ hs) hidle
  rw [hcount, hsize] at heq
  exact absurd heq (by decide)

end KernelModules.Ctr
