import Mathlib.Tactic
import KernelModules.Lib.Transition
import KernelModules.Lib.Occupancy

/-!
# CDCM semaphores

The drivers ported from LynxOS wait on counting semaphores that the CDCM layer builds from a
spinlock, an unsigned count and a FIFO list of waiters.  A waiter that does not get a unit at
once sleeps outside the lock; an up hands its unit to the first waiter by marking it, and the
waiter looks at its mark when it holds the lock again.

* `Sem` is the semaphore with the tasks that use it, and what has happened to it so far;
* `downCommon`, `recheck`, `cdcmUp`, `sresetLocked` and the Lynx calls over them are the code of
  `cdcmTime.c`, one definition for each critical section;
* `SemInv` is what every interleaving of these sections keeps: units are waiting or tasks are,
  never both; the list is exactly the blocked tasks in the order they came; and no unit is lost.

`count` is an `unsigned int`, so an up at `2^32 - 1` wraps it to zero; `wraps` counts these.
-/

namespace KernelModules.Cdcm

open Function KernelModules.Lib

/-! ### The semaphore and its tasks -/

/-- The sleep of a waiter: `TASK_INTERRUPTIBLE` or `TASK_UNINTERRUPTIBLE`. -/
inductive SleepState where
  | interruptible
  | uninterruptible
  deriving DecidableEq, Repr

/-- What `__cdcm_down_common` returns: `0`, `-ETIME` or `-EINTR`. -/
inductive DownResult where
  | ok
  | etime
  | eintr
  deriving DecidableEq, Repr

/-- The `cdcm_down*` function a waiter sleeps in, which fixes what its task gets back. -/
inductive DownCall where
  | down
  | downInterruptible
  | downTimeout
  deriving DecidableEq, Repr

/-- The `sig` argument of `swait` and `tswait`. -/
inductive SemSig where
  | sigignore
  | sigretry
  | sigabort
  | other
  deriving DecidableEq, Repr

/-- Who marked a waiter. -/
inductive Waker where
  | up
  | reset
  deriving DecidableEq, Repr

/-- `OK`, `SYSERR` and the results of `tswait`. -/
def lynxOk : ℤ := 0
def sysErr : ℤ := -1
def tswaitAborted : ℤ := -1
def tswaitTimedOut : ℤ := 1

/-- `MAX_SCHEDULE_TIMEOUT`, that is `LONG_MAX`. -/
def maxScheduleTimeout : ℤ := 2 ^ 63 - 1

/-- `struct cdcm_sem_waiter` with the arguments its task sleeps with.  `up` also says who set the
mark, and `since` numbers the arrivals. -/
structure Waiter where
  call : DownCall
  state : SleepState
  timeout : ℤ
  up : Option Waker
  since : ℕ
  deriving DecidableEq, Repr

/-- A task is outside the semaphore, with the value of its last call, or asleep in it. -/
inductive TaskPhase where
  | running (last : Option ℤ)
  | sleeping (w : Waiter)
  deriving DecidableEq, Repr

/-- `struct cdcm_sem`, its tasks and its history: the ups made, the waits that returned with a
unit of an up, the units thrown away by `sreset`, the times the count wrapped, the arrivals. -/
structure Sem (Task : Type*) where
  count : BitVec 32
  waitList : List Task
  tasks : Task → TaskPhase
  ups : ℕ
  acquired : ℕ
  discarded : ℕ
  wraps : ℕ
  arrivals : ℕ

/-- `signal_pending_state`: only an interruptible sleep sees a signal. -/
def signalPendingState (state : SleepState) (pending : Bool) : Bool :=
  match state with
  | .interruptible => pending
  | .uninterruptible => false

/-- `schedule_timeout`: the largest timeout never runs down, any other leaves at most itself. -/
def scheduleTimeout (timeout left : ℤ) : ℤ :=
  if timeout = maxScheduleTimeout then maxScheduleTimeout else max 0 (min left timeout)

/-- The value the calling Lynx function returns: `swait` drops the result of `cdcm_down` and
turns any error of `cdcm_down_interruptible` into `SYSERR`, `tswait` translates them. -/
def DownCall.result : DownCall → DownResult → ℤ
  | .down, _ => lynxOk
  | .downInterruptible, .ok => lynxOk
  | .downInterruptible, _ => sysErr
  | .downTimeout, .ok => lynxOk
  | .downTimeout, .etime => tswaitTimedOut
  | .downTimeout, .eintr => tswaitAborted

/-- The state `__cdcm_down`, `__cdcm_down_interruptible` and `__cdcm_down_timeout` sleep in. -/
def DownCall.sleepState : DownCall → SleepState
  | .downInterruptible => .interruptible
  | .down | .downTimeout => .uninterruptible

/-- The timeout they sleep with. -/
def DownCall.sleepTimeout (jiffies : ℤ) : DownCall → ℤ
  | .downTimeout => jiffies
  | .down | .downInterruptible => maxScheduleTimeout

/-- Setting the `up` field of a sleeping task's waiter. -/
def TaskPhase.mark (waker : Waker) : TaskPhase → TaskPhase
  | .running last => .running last
  | .sleeping w => .sleeping { w with up := some waker }

namespace Sem

variable {Task : Type*} [DecidableEq Task]

/-- `cdcm_sem_init` with the user's initial value; no task is in the semaphore. -/
def start (val : BitVec 32) : Sem Task where
  count := val
  waitList := []
  tasks _ := .running none
  ups := 0
  acquired := 0
  discarded := 0
  wraps := 0
  arrivals := 0

/-- A call of `t` returns `v`. -/
def returns (s : Sem Task) (t : Task) (v : ℤ) : Sem Task :=
  { s with tasks := update s.tasks t (.running (some v)) }

/-! ### Waiting -/

/-- The exits of `__cdcm_down_common` without a unit: the waiter is unlinked. -/
def leave (s : Sem Task) (t : Task) (w : Waiter) (r : DownResult) : Sem Task :=
  { s with waitList := s.waitList.erase t }.returns t (w.call.result r)

/-- The head of the loop of `__cdcm_down_common`, up to the unlock before it sleeps. -/
def downLoop (s : Sem Task) (t : Task) (w : Waiter) (pending : Bool) : Sem Task :=
  if signalPendingState w.state pending then s.leave t w .eintr
  else if w.timeout ≤ 0 then s.leave t w .etime
  else { s with tasks := update s.tasks t (.sleeping w) }

/-- `__cdcm_down_common` up to its first sleep. -/
def downCommon (s : Sem Task) (t : Task) (call : DownCall) (state : SleepState) (timeout : ℤ)
    (pending : Bool) : Sem Task :=
  { s with
    waitList := s.waitList ++ [t]
    arrivals := s.arrivals + 1 }.downLoop t
      { call := call, state := state, timeout := timeout, up := none, since := s.arrivals } pending

/-- `cdcm_down`, `cdcm_down_interruptible` and `cdcm_down_timeout`. -/
def cdcmDown (s : Sem Task) (t : Task) (call : DownCall) (timeout : ℤ) (pending : Bool) :
    Sem Task :=
  if 0 < s.count.toNat then
    { s with
      count := s.count - 1
      acquired := s.acquired + 1 }.returns t (call.result .ok)
  else s.downCommon t call call.sleepState (call.sleepTimeout timeout) pending

/-- `cdcm_down_trylock`: `int count = sem->count - 1`, taken if it is not negative. -/
def cdcmDownTrylock (s : Sem Task) (t : Task) : Sem Task :=
  if 0 ≤ (s.count - 1).toInt then
    { s with
      count := s.count - 1
      acquired := s.acquired + 1 }.returns t 0
  else s.returns t 1

/-- The section a sleeping task runs when `schedule_timeout` is over and it has the lock again. -/
def recheck (s : Sem Task) (t : Task) (w : Waiter) (left : ℤ) (pending : Bool) : Sem Task :=
  match w.up with
  | some .up => { s with acquired := s.acquired + 1 }.returns t (w.call.result .ok)
  | some .reset => s.returns t (w.call.result .ok)
  | none => s.downLoop t { w with timeout := scheduleTimeout w.timeout left } pending

/-! ### Waking -/

/-- `__cdcm_up_waiter`: the first waiter is unlinked and marked. -/
def cdcmUpWaiter (s : Sem Task) (waker : Waker) : Sem Task :=
  match s.waitList with
  | [] => s
  | t :: rest => { s with waitList := rest, tasks := update s.tasks t ((s.tasks t).mark waker) }

/-- `__cdcm_up`. -/
def cdcmUp (s : Sem Task) : Sem Task :=
  match s.waitList with
  | [] =>
    { s with
      count := s.count + 1
      ups := s.ups + 1
      wraps := s.wraps + if s.count.toNat = 2 ^ 32 - 1 then 1 else 0 }
  | _ :: _ => { s with ups := s.ups + 1 }.cdcmUpWaiter .up

/-- `__sreset`. -/
def sresetLocked (s : Sem Task) : Sem Task :=
  if s.count.toNat = 0 then (fun x => cdcmUpWaiter x .reset)^[s.waitList.length] s
  else { s with count := 0, discarded := s.discarded + s.count.toNat }

/-- `__scount`, the count read as an `int`. -/
def scountLocked (s : Sem Task) : ℤ :=
  if 0 < s.count.toNat then s.count.toInt else -1 * (s.waitList.length : ℤ)

/-! ### The Lynx calls -/

/-- `swait` up to its first sleep. -/
def swait (s : Sem Task) (t : Task) (sig : SemSig) (pending : Bool) : Sem Task :=
  match sig with
  | .sigignore => s.cdcmDown t .down 0 pending
  | .sigabort | .sigretry => s.cdcmDown t .downInterruptible 0 pending
  | .other => s.returns t sysErr

/-- `tswait` on a semaphore up to its first sleep; the interval is in units of 10 ms. -/
def tswait (msecsToJiffies : ℤ → ℤ) (s : Sem Task) (t : Task) (sig : SemSig) (interval : ℤ)
    (pending : Bool) : Sem Task :=
  if interval = 0 then s.cdcmDownTrylock t
  else if interval < 0 then s.swait t sig pending
  else s.cdcmDown t .downTimeout (msecsToJiffies (10 * interval)) pending

def ssignal (s : Sem Task) : Sem Task := s.cdcmUp

/-- `ssignaln`: the loop runs `count` times, not at all for a negative count. -/
def ssignaln (s : Sem Task) (count : ℤ) : Sem Task := cdcmUp^[count.toNat] s

def sreset (s : Sem Task) : Sem Task := s.sresetLocked

def scount (s : Sem Task) (t : Task) : Sem Task := s.returns t s.scountLocked

end Sem

/-! ### The semaphore as a system -/

/-- One critical section.  `pending` says whether the task has a signal when the section looks,
`left` what its timer leaves of its timeout. -/
inductive Section (Task : Type*) where
  | swait (t : Task) (sig : SemSig) (pending : Bool)
  | tswait (t : Task) (sig : SemSig) (interval : ℤ) (pending : Bool)
  | recheck (t : Task) (left : ℤ) (pending : Bool)
  | ssignal
  | ssignaln (count : ℤ)
  | sreset
  | scount (t : Task)
  deriving DecidableEq, Repr

section System

variable {Task : Type*} [DecidableEq Task]

/-- A task calls only when it is outside, and runs the re-check only when it sleeps. -/
def semStep (msecsToJiffies : ℤ → ℤ) (s : Sem Task) : Section Task → Option (Sem Task)
  | .swait t sig pending =>
    match s.tasks t with
    | .running _ => some (s.swait t sig pending)
    | .sleeping _ => none
  | .tswait t sig interval pending =>
    match s.tasks t with
    | .running _ => some (s.tswait msecsToJiffies t sig interval pending)
    | .sleeping _ => none
  | .recheck t left pending =>
    match s.tasks t with
    | .running _ => none
    | .sleeping w => some (s.recheck t w left pending)
  | .ssignal => some s.ssignal
  | .ssignaln count => some (s.ssignaln count)
  | .sreset => some s.sreset
  | .scount t =>
    match s.tasks t with
    | .running _ => some (s.scount t)
    | .sleeping _ => none

/-- Any tasks, any sections, in any order, from the user's initial value. -/
def semSystem (msecsToJiffies : ℤ → ℤ) (val : BitVec 32) : System (Sem Task) (Section Task) :=
  System.ofFun (· = Sem.start val) (semStep msecsToJiffies)

end System

/-! ### What every interleaving keeps -/

namespace Sem

variable {Task : Type*}

/-- The task sleeps in the semaphore and has not been marked. -/
def Blocked (s : Sem Task) (t : Task) : Prop := ∃ w, s.tasks t = .sleeping w ∧ w.up = none

/-- The task has been marked and has not had the lock since. -/
def Picked (s : Sem Task) (waker : Waker) (t : Task) : Prop :=
  ∃ w, s.tasks t = .sleeping w ∧ w.up = some waker

/-- The arrival number of a sleeping task. -/
def since (s : Sem Task) (t : Task) : ℕ :=
  match s.tasks t with
  | .running _ => 0
  | .sleeping w => w.since

/-- Units and waiters exclude each other, and the list is the blocked tasks in arrival order. -/
structure QueueInv (s : Sem Task) : Prop where
  excl : 0 < s.count.toNat → s.waitList = []
  exact : ∀ t, t ∈ s.waitList ↔ s.Blocked t
  fifo : s.waitList.Pairwise fun a b => s.since a < s.since b
  fresh : ∀ t w, s.tasks t = .sleeping w → w.since < s.arrivals

/-- Every unit is in the count, with a waiter, thrown away or in a wrap of the count. -/
def Conserved (val : BitVec 32) (s : Sem Task) : Prop :=
  ∃ n, Counts (s.Picked .up) n ∧
    val.toNat + s.ups = s.count.toNat + (s.acquired + n) + s.discarded + 2 ^ 32 * s.wraps

theorem QueueInv.nodup {s : Sem Task} (h : s.QueueInv) : s.waitList.Nodup :=
  h.fifo.imp fun hlt heq => absurd hlt (by rw [heq]; exact lt_irrefl _)

/-! ### Tasks that change phase -/

section Update

variable [DecidableEq Task] {s s' : Sem Task} {t : Task} {p : TaskPhase}

theorem tasks_of_ne (htasks : s'.tasks = update s.tasks t p) {u : Task} (hu : u ≠ t) :
    s'.tasks u = s.tasks u := by
  rw [htasks, update_of_ne hu]

theorem tasks_self (htasks : s'.tasks = update s.tasks t p) : s'.tasks t = p := by
  rw [htasks, update_self]

theorem blocked_of_ne (htasks : s'.tasks = update s.tasks t p) {u : Task} (hu : u ≠ t) :
    s'.Blocked u ↔ s.Blocked u := by
  rw [Blocked, Blocked, tasks_of_ne htasks hu]

theorem picked_of_ne (htasks : s'.tasks = update s.tasks t p) (waker : Waker) {u : Task}
    (hu : u ≠ t) : s'.Picked waker u ↔ s.Picked waker u := by
  rw [Picked, Picked, tasks_of_ne htasks hu]

theorem since_of_ne (htasks : s'.tasks = update s.tasks t p) {u : Task} (hu : u ≠ t) :
    s'.since u = s.since u := by
  rw [since, since, tasks_of_ne htasks hu]

theorem QueueInv.settle (h : s.QueueInv) (hlist : s'.waitList = s.waitList.erase t)
    (htasks : s'.tasks = update s.tasks t p) (hp : ∀ w, p = .sleeping w → w.up ≠ none)
    (hsince : ∀ w, p = .sleeping w → w.since < s'.arrivals) (harr : s.arrivals ≤ s'.arrivals)
    (hcount : 0 < s'.count.toNat → s'.waitList = []) : s'.QueueInv where
  excl := hcount
  exact u := by
    by_cases hu : u = t
    · subst hu
      rw [hlist]
      refine iff_of_false (h.nodup.not_mem_erase) ?_
      intro hb
      obtain ⟨w, hw, hup⟩ := hb
      exact hp w ((tasks_self htasks).symm.trans hw) hup
    · rw [hlist, List.mem_erase_of_ne hu, blocked_of_ne htasks hu]
      exact h.exact u
  fifo := by
    rw [hlist]
    refine (h.fifo.sublist List.erase_sublist).imp_of_mem ?_
    intro a b ha hb hlt
    have hat : a ≠ t := fun heq => h.nodup.not_mem_erase (heq ▸ ha)
    have hbt : b ≠ t := fun heq => h.nodup.not_mem_erase (heq ▸ hb)
    rwa [since_of_ne htasks hat, since_of_ne htasks hbt]
  fresh u w hw := by
    by_cases hu : u = t
    · subst hu
      exact hsince w ((tasks_self htasks).symm.trans hw)
    · rw [tasks_of_ne htasks hu] at hw
      exact lt_of_lt_of_le (h.fresh u w hw) harr

theorem QueueInv.enqueue (h : s.QueueInv) (hcount : s'.count.toNat = 0)
    (hout : ¬ s.Blocked t) (hlist : s'.waitList = s.waitList ++ [t]) {w : Waiter}
    (htasks : s'.tasks = update s.tasks t (.sleeping w)) (hup : w.up = none)
    (hw : w.since = s.arrivals) (harr : s'.arrivals = s.arrivals + 1) : s'.QueueInv where
  excl hpos := absurd hpos (by omega)
  exact u := by
    rw [hlist, List.mem_append, List.mem_singleton]
    by_cases hu : u = t
    · subst hu
      exact iff_of_true (Or.inr rfl) ⟨w, tasks_self htasks, hup⟩
    · rw [blocked_of_ne htasks hu, h.exact u]
      exact or_iff_left hu
  fifo := by
    have hne : ∀ a ∈ s.waitList, a ≠ t := fun a ha heq => hout ((h.exact t).1 (heq ▸ ha))
    rw [hlist, List.pairwise_append]
    refine ⟨?_, List.pairwise_singleton _ _, ?_⟩
    · refine h.fifo.imp_of_mem ?_
      intro a b ha hb hlt
      rwa [since_of_ne htasks (hne a ha), since_of_ne htasks (hne b hb)]
    · intro a ha b hb
      rw [List.mem_singleton] at hb
      subst hb
      obtain ⟨v, hv, -⟩ := (h.exact a).1 ha
      have hlt := h.fresh a v hv
      rw [since_of_ne htasks (hne a ha)]
      simp only [since, hv, tasks_self htasks, hw]
      exact hlt
  fresh u v hv := by
    by_cases hu : u = t
    · subst hu
      rw [tasks_self htasks, TaskPhase.sleeping.injEq] at hv
      rw [← hv, hw, harr]
      exact Nat.lt_succ_self _
    · rw [tasks_of_ne htasks hu] at hv
      have := h.fresh u v hv
      omega

theorem QueueInv.resleep (h : s.QueueInv) (hcount : s'.count = s.count)
    (hlist : s'.waitList = s.waitList) {w w' : Waiter} (ht : s.tasks t = .sleeping w)
    (hup : w.up = none) (htasks : s'.tasks = update s.tasks t (.sleeping w'))
    (hup' : w'.up = none) (hw' : w'.since = w.since) (harr : s'.arrivals = s.arrivals) :
    s'.QueueInv := by
  have hsince : ∀ u, s'.since u = s.since u := by
    intro u
    by_cases hu : u = t
    · subst hu
      simp only [since, tasks_self htasks, ht, hw']
    · exact since_of_ne htasks hu
  refine ⟨?_, ?_, ?_, ?_⟩
  · rw [hcount, hlist]
    exact h.excl
  · intro u
    rw [hlist, h.exact u]
    by_cases hu : u = t
    · subst hu
      exact iff_of_true ⟨w, ht, hup⟩ ⟨w', tasks_self htasks, hup'⟩
    · exact (blocked_of_ne htasks hu).symm
  · rw [hlist]
    exact h.fifo.imp fun {a b} hlt => by rwa [hsince a, hsince b]
  · intro u v hv
    rw [harr]
    by_cases hu : u = t
    · subst hu
      rw [tasks_self htasks, TaskPhase.sleeping.injEq] at hv
      rw [← hv, hw']
      exact h.fresh u w ht
    · exact h.fresh u v ((tasks_of_ne htasks hu).symm.trans hv)

variable {val : BitVec 32}

omit [DecidableEq Task] in
theorem Conserved.of_same (h : Conserved val s) (hpick : ∀ u, s'.Picked .up u ↔ s.Picked .up u)
    (hsum : s'.ups + (s.count.toNat + s.acquired + s.discarded + 2 ^ 32 * s.wraps) =
      s.ups + (s'.count.toNat + s'.acquired + s'.discarded + 2 ^ 32 * s'.wraps)) :
    Conserved val s' := by
  obtain ⟨n, hn, hsumn⟩ := h
  refine ⟨n, hn.congr hpick, ?_⟩
  omega

theorem Conserved.of_update (h : Conserved val s) (htasks : s'.tasks = update s.tasks t p)
    (ht : ¬ s.Picked .up t) (hp : ∀ w, p = .sleeping w → w.up ≠ some .up)
    (hsum : s'.ups + (s.count.toNat + s.acquired + s.discarded + 2 ^ 32 * s.wraps) =
      s.ups + (s'.count.toNat + s'.acquired + s'.discarded + 2 ^ 32 * s'.wraps)) :
    Conserved val s' := by
  refine h.of_same ?_ hsum
  intro u
  by_cases hu : u = t
  · subst hu
    refine iff_of_false ?_ ht
    intro hpick
    obtain ⟨w, hw, hup⟩ := hpick
    exact hp w ((tasks_self htasks).symm.trans hw) hup
  · exact picked_of_ne htasks .up hu

theorem Conserved.pick (h : Conserved val s) {w : Waiter}
    (htasks : s'.tasks = update s.tasks t (.sleeping w)) (ht : ¬ s.Picked .up t)
    (hw : w.up = some .up) (hups : s'.ups = s.ups + 1) (hcount : s'.count = s.count)
    (hacq : s'.acquired = s.acquired) (hdisc : s'.discarded = s.discarded)
    (hwraps : s'.wraps = s.wraps) : Conserved val s' := by
  obtain ⟨n, hn, hsum⟩ := h
  refine ⟨n + 1, hn.enter ht ⟨w, tasks_self htasks, hw⟩ fun u hu => picked_of_ne htasks .up hu, ?_⟩
  rw [hups, hcount, hacq, hdisc, hwraps]
  omega

theorem Conserved.unpick (h : Conserved val s) {v : ℤ}
    (htasks : s'.tasks = update s.tasks t (.running (some v))) (ht : s.Picked .up t)
    (hups : s'.ups = s.ups) (hcount : s'.count = s.count)
    (hacq : s'.acquired = s.acquired + 1) (hdisc : s'.discarded = s.discarded)
    (hwraps : s'.wraps = s.wraps) : Conserved val s' := by
  obtain ⟨n, hn, hsum⟩ := h
  obtain ⟨k, rfl⟩ := Nat.exists_eq_succ_of_ne_zero (hn.pos ht).ne'
  refine ⟨k, hn.exit ht ?_ fun u hu => picked_of_ne htasks .up hu, ?_⟩
  · intro hpick
    obtain ⟨w, hw, -⟩ := hpick
    cases (tasks_self htasks).symm.trans hw
  · rw [hups, hcount, hacq, hdisc, hwraps]
    omega

end Update

/-! ### Each critical section -/

/-- The invariant of a semaphore started with `val`. -/
structure SemInv (val : BitVec 32) (s : Sem Task) : Prop where
  queue : s.QueueInv
  units : Conserved val s

theorem semInv_start (val : BitVec 32) : SemInv val (start val : Sem Task) where
  queue :=
    { excl := fun _ => rfl
      exact := fun _ => iff_of_false List.not_mem_nil (by rintro ⟨w, hw, -⟩; cases hw)
      fifo := List.Pairwise.nil
      fresh := by intro t w hw; cases hw }
  units := by
    refine ⟨0, counts_zero ?_, ?_⟩
    · rintro t ⟨w, hw, -⟩
      cases hw
    · simp [start]

theorem not_blocked_of_running {s : Sem Task} {t : Task} {last : Option ℤ}
    (ht : s.tasks t = .running last) : ¬ s.Blocked t := by
  rintro ⟨w, hw, -⟩
  cases ht.symm.trans hw

theorem not_picked_of_running {s : Sem Task} {t : Task} {last : Option ℤ}
    (ht : s.tasks t = .running last) (waker : Waker) : ¬ s.Picked waker t := by
  rintro ⟨w, hw, -⟩
  cases ht.symm.trans hw

theorem not_blocked_of_up {s : Sem Task} {t : Task} {w : Waiter} (ht : s.tasks t = .sleeping w)
    (hw : w.up ≠ none) : ¬ s.Blocked t := by
  rintro ⟨v, hv, hup⟩
  cases ht.symm.trans hv
  exact hw hup

theorem not_picked_of_up {s : Sem Task} {t : Task} {w : Waiter} {waker : Waker}
    (ht : s.tasks t = .sleeping w) (hw : w.up ≠ some waker) : ¬ s.Picked waker t := by
  rintro ⟨v, hv, hup⟩
  cases ht.symm.trans hv
  exact hw hup

variable [DecidableEq Task] {s : Sem Task} {val : BitVec 32} {t : Task}

theorem toNat_sub_one {c : BitVec 32} (hpos : 0 < c.toNat) : (c - 1).toNat + 1 = c.toNat := by
  bv_omega

theorem toNat_add_one (c : BitVec 32) :
    (c + 1).toNat + 2 ^ 32 * (if c.toNat = 2 ^ 32 - 1 then 1 else 0) = c.toNat + 1 := by
  split <;> bv_omega

theorem QueueInv.erase_eq (h : s.QueueInv) (ht : ¬ s.Blocked t) :
    s.waitList.erase t = s.waitList :=
  List.erase_of_not_mem fun hmem => ht ((h.exact t).1 hmem)

theorem SemInv.returns (h : SemInv val s) (hb : ¬ s.Blocked t) (hp : ¬ s.Picked .up t) (v : ℤ) :
    SemInv val (s.returns t v) where
  queue := h.queue.settle (h.queue.erase_eq hb).symm rfl (by simp) (by simp) le_rfl h.queue.excl
  units := h.units.of_update rfl hp (by simp) rfl

theorem SemInv.take (h : SemInv val s) (hb : ¬ s.Blocked t) (hp : ¬ s.Picked .up t)
    (hpos : 0 < s.count.toNat) (v : ℤ) :
    SemInv val ({ s with count := s.count - 1, acquired := s.acquired + 1 }.returns t v) where
  queue :=
    h.queue.settle (h.queue.erase_eq hb).symm rfl (by simp) (by simp) le_rfl
      fun _ => h.queue.excl hpos
  units := by
    refine h.units.of_update rfl hp (by simp) ?_
    have hsub := toNat_sub_one hpos
    simp only [Sem.returns]
    omega

theorem SemInv.downCommon (h : SemInv val s) {last : Option ℤ} (ht : s.tasks t = .running last)
    (hcount : s.count.toNat = 0) (call : DownCall) (state : SleepState) (timeout : ℤ)
    (pending : Bool) : SemInv val (s.downCommon t call state timeout pending) := by
  have hb := not_blocked_of_running ht
  have hp := not_picked_of_running ht .up
  have herase : (s.waitList ++ [t]).erase t = s.waitList.erase t := by
    rw [List.erase_append_right _ fun hmem => hb ((h.queue.exact t).1 hmem), h.queue.erase_eq hb]
    simp
  have hleave : ∀ (w : Waiter) (r : DownResult), SemInv val
      (leave { s with waitList := s.waitList ++ [t], arrivals := s.arrivals + 1 } t w r) := by
    intro w r
    refine ⟨h.queue.settle herase rfl (by simp) (by simp) (Nat.le_succ _) ?_,
      h.units.of_update rfl hp (by simp) rfl⟩
    intro hpos
    simp only [leave, Sem.returns] at hpos
    omega
  rw [Sem.downCommon, downLoop]
  split
  · exact hleave _ _
  split
  · exact hleave _ _
  · refine ⟨h.queue.enqueue hcount hb rfl rfl rfl rfl rfl, h.units.of_update rfl hp ?_ rfl⟩
    intro w hw
    cases hw
    simp

theorem SemInv.cdcmDown (h : SemInv val s) {last : Option ℤ} (ht : s.tasks t = .running last)
    (call : DownCall) (timeout : ℤ) (pending : Bool) :
    SemInv val (s.cdcmDown t call timeout pending) := by
  rw [Sem.cdcmDown]
  split
  · rename_i hpos
    exact h.take (not_blocked_of_running ht) (not_picked_of_running ht .up) hpos _
  · rename_i hzero
    exact h.downCommon ht (Nat.eq_zero_of_not_pos hzero) _ _ _ _

theorem pos_of_trylock {c : BitVec 32} (h : 0 ≤ (c - 1).toInt) : 0 < c.toNat := by
  by_contra hzero
  have hc : c = 0 := BitVec.eq_of_toNat_eq (by simpa using hzero)
  rw [hc] at h
  exact absurd h (by decide)

theorem SemInv.cdcmDownTrylock (h : SemInv val s) {last : Option ℤ}
    (ht : s.tasks t = .running last) : SemInv val (s.cdcmDownTrylock t) := by
  have hb := not_blocked_of_running ht
  have hp := not_picked_of_running ht .up
  rw [Sem.cdcmDownTrylock]
  split
  · rename_i hge
    exact h.take hb hp (pos_of_trylock hge) _
  · exact h.returns hb hp _

theorem SemInv.swait (h : SemInv val s) {last : Option ℤ} (ht : s.tasks t = .running last)
    (sig : SemSig) (pending : Bool) : SemInv val (s.swait t sig pending) := by
  cases sig with
  | sigignore => exact h.cdcmDown ht .down 0 pending
  | sigretry => exact h.cdcmDown ht .downInterruptible 0 pending
  | sigabort => exact h.cdcmDown ht .downInterruptible 0 pending
  | other => exact h.returns (not_blocked_of_running ht) (not_picked_of_running ht .up) _

theorem SemInv.tswait (h : SemInv val s) {last : Option ℤ} (ht : s.tasks t = .running last)
    (msecsToJiffies : ℤ → ℤ) (sig : SemSig) (interval : ℤ) (pending : Bool) :
    SemInv val (s.tswait msecsToJiffies t sig interval pending) := by
  rw [Sem.tswait]
  split
  · exact h.cdcmDownTrylock ht
  split
  · exact h.swait ht sig pending
  · exact h.cdcmDown ht _ _ _

theorem SemInv.recheck (h : SemInv val s) {w : Waiter} (ht : s.tasks t = .sleeping w) (left : ℤ)
    (pending : Bool) : SemInv val (s.recheck t w left pending) := by
  rw [Sem.recheck]
  split
  · rename_i hup
    have hb := not_blocked_of_up ht (by simp [hup])
    exact ⟨h.queue.settle (h.queue.erase_eq hb).symm rfl (by simp) (by simp) le_rfl h.queue.excl,
      h.units.unpick rfl ⟨w, ht, hup⟩ rfl rfl rfl rfl rfl⟩
  · rename_i hup
    exact h.returns (not_blocked_of_up ht (by simp [hup]))
      (not_picked_of_up ht (by simp [hup])) _
  · rename_i hup
    have hp : ¬ s.Picked .up t := not_picked_of_up ht (by simp [hup])
    have hleave : ∀ (v : Waiter) (r : DownResult), SemInv val (s.leave t v r) := by
      intro v r
      refine ⟨h.queue.settle rfl rfl (by simp) (by simp) le_rfl ?_,
        h.units.of_update rfl hp (by simp) rfl⟩
      intro hpos
      show s.waitList.erase t = []
      rw [h.queue.excl hpos, List.erase_nil]
    rw [downLoop]
    split
    · exact hleave _ _
    split
    · exact hleave _ _
    · refine ⟨h.queue.resleep rfl rfl ht hup rfl hup rfl rfl, h.units.of_update rfl hp ?_ rfl⟩
      intro v hv
      cases hv
      rw [hup]
      simp

theorem QueueInv.cdcmUpWaiter (h : s.QueueInv) (waker : Waker) :
    (s.cdcmUpWaiter waker).QueueInv := by
  rw [Sem.cdcmUpWaiter]
  split
  · exact h
  · rename_i u rest hlist
    obtain ⟨w, hw, hup⟩ := (h.exact u).1 (hlist ▸ List.mem_cons_self)
    refine h.settle (t := u) ?_ rfl ?_ ?_ le_rfl ?_
    · rw [hlist, List.erase_cons_head]
    · intro v hv
      rw [hw, TaskPhase.mark, TaskPhase.sleeping.injEq] at hv
      rw [← hv]
      simp
    · intro v hv
      rw [hw, TaskPhase.mark, TaskPhase.sleeping.injEq] at hv
      rw [← hv]
      exact h.fresh u w hw
    · intro hpos
      have := h.excl hpos
      rw [hlist] at this
      cases this

theorem SemInv.cdcmUpWaiter_reset (h : SemInv val s) : SemInv val (s.cdcmUpWaiter .reset) := by
  refine ⟨h.queue.cdcmUpWaiter .reset, ?_⟩
  rw [Sem.cdcmUpWaiter]
  split
  · exact h.units
  · rename_i u rest hlist
    obtain ⟨w, hw, hup⟩ := (h.queue.exact u).1 (hlist ▸ List.mem_cons_self)
    refine h.units.of_update rfl (not_picked_of_up hw (by simp [hup])) ?_ rfl
    intro v hv
    rw [hw, TaskPhase.mark, TaskPhase.sleeping.injEq] at hv
    rw [← hv]
    simp

theorem SemInv.cdcmUp (h : SemInv val s) : SemInv val s.cdcmUp := by
  rw [Sem.cdcmUp]
  split
  · rename_i hlist
    refine ⟨⟨fun _ => hlist, h.queue.exact, h.queue.fifo, h.queue.fresh⟩, ?_⟩
    refine h.units.of_same (fun u => Iff.rfl) ?_
    have hadd := toNat_add_one s.count
    simp only [Nat.mul_add]
    omega
  · rename_i u rest hlist
    obtain ⟨w, hw, hup⟩ := (h.queue.exact u).1 (hlist ▸ List.mem_cons_self)
    refine ⟨?_, ?_⟩
    · exact QueueInv.cdcmUpWaiter (s := { s with ups := s.ups + 1 })
        ⟨h.queue.excl, h.queue.exact, h.queue.fifo, h.queue.fresh⟩ .up
    · refine h.units.pick (t := u) (w := { w with up := some .up }) ?_
        (not_picked_of_up hw (by simp [hup])) rfl ?_ ?_ ?_ ?_ ?_
      all_goals simp only [Sem.cdcmUpWaiter, hlist, hw, TaskPhase.mark]

omit [DecidableEq Task] in
theorem SemInv.iterate {f : Sem Task → Sem Task} (hf : ∀ x, SemInv val x → SemInv val (f x))
    (n : ℕ) (h : SemInv val s) : SemInv val (f^[n] s) := by
  induction n generalizing s with
  | zero => exact h
  | succ n ih => exact ih (hf s h)

theorem SemInv.ssignaln (h : SemInv val s) (count : ℤ) : SemInv val (s.ssignaln count) :=
  h.iterate (fun _ hx => hx.cdcmUp) count.toNat

theorem SemInv.sreset (h : SemInv val s) : SemInv val s.sreset := by
  rw [Sem.sreset, sresetLocked]
  split
  · exact h.iterate (fun _ hx => hx.cdcmUpWaiter_reset) _
  · rename_i hpos
    have hlist := h.queue.excl (Nat.pos_of_ne_zero hpos)
    refine ⟨⟨fun _ => hlist, h.queue.exact, h.queue.fifo, h.queue.fresh⟩, ?_⟩
    refine h.units.of_same (fun u => Iff.rfl) ?_
    have hzero : (0 : BitVec 32).toNat = 0 := rfl
    dsimp only
    omega

theorem SemInv.step (h : SemInv val s) {msecsToJiffies : ℤ → ℤ} {a : Section Task} {s' : Sem Task}
    (hs : semStep msecsToJiffies s a = some s') : SemInv val s' := by
  cases a with
  | swait t sig pending =>
    cases ht : s.tasks t with
    | running last =>
      simp only [semStep, ht, Option.some.injEq] at hs
      exact hs ▸ h.swait ht sig pending
    | sleeping w => simp [semStep, ht] at hs
  | tswait t sig interval pending =>
    cases ht : s.tasks t with
    | running last =>
      simp only [semStep, ht, Option.some.injEq] at hs
      exact hs ▸ h.tswait ht msecsToJiffies sig interval pending
    | sleeping w => simp [semStep, ht] at hs
  | recheck t left pending =>
    cases ht : s.tasks t with
    | running last => simp [semStep, ht] at hs
    | sleeping w =>
      simp only [semStep, ht, Option.some.injEq] at hs
      exact hs ▸ h.recheck ht left pending
  | ssignal =>
    cases hs
    exact h.cdcmUp
  | ssignaln count =>
    cases hs
    exact h.ssignaln count
  | sreset =>
    cases hs
    exact h.sreset
  | scount t =>
    cases ht : s.tasks t with
    | running last =>
      simp only [semStep, ht, Option.some.injEq] at hs
      exact hs ▸ h.returns (not_blocked_of_running ht) (not_picked_of_running ht .up) _
    | sleeping w => simp [semStep, ht] at hs

theorem semInv_of_reach {msecsToJiffies : ℤ → ℤ}
    (h : (semSystem msecsToJiffies val).Reach s) : SemInv val s := by
  refine h.invariant ?_ ?_
  · rintro s₀ rfl
    exact semInv_start val
  · intro s a s' hinv hs
    exact hinv.step hs

/-! ### A marked task succeeds -/

theorem picked_cdcmUpWaiter (hinv : s.QueueInv) {waker : Waker} (hp : s.Picked waker t)
    (waker' : Waker) : (s.cdcmUpWaiter waker').Picked waker t := by
  rw [Sem.cdcmUpWaiter]
  split
  · exact hp
  · rename_i u rest hlist
    obtain ⟨w, hw, hup⟩ := hp
    have hne : t ≠ u := by
      rintro rfl
      have hb := (hinv.exact t).1 (hlist ▸ List.mem_cons_self)
      exact not_blocked_of_up hw (by simp [hup]) hb
    exact ⟨w, (update_of_ne hne _ _).trans hw, hup⟩

theorem picked_cdcmUp (hinv : SemInv val s) {waker : Waker} (hp : s.Picked waker t) :
    s.cdcmUp.Picked waker t := by
  rw [Sem.cdcmUp]
  split
  · exact hp
  · exact picked_cdcmUpWaiter (s := { s with ups := s.ups + 1 })
      ⟨hinv.queue.excl, hinv.queue.exact, hinv.queue.fifo, hinv.queue.fresh⟩ hp .up

omit [DecidableEq Task] in
theorem picked_iterate {f : Sem Task → Sem Task} (hf : ∀ x, SemInv val x → SemInv val (f x))
    {waker : Waker} (hpick : ∀ x, SemInv val x → x.Picked waker t → (f x).Picked waker t) (n : ℕ)
    (hinv : SemInv val s) (hp : s.Picked waker t) : (f^[n] s).Picked waker t := by
  induction n generalizing s with
  | zero => exact hp
  | succ n ih => exact ih (hf s hinv) (hpick s hinv hp)

theorem picked_sreset (hinv : SemInv val s) {waker : Waker} (hp : s.Picked waker t) :
    s.sreset.Picked waker t := by
  rw [Sem.sreset, sresetLocked]
  split
  · exact picked_iterate (fun _ hx => hx.cdcmUpWaiter_reset)
      (fun _ hx hpx => picked_cdcmUpWaiter hx.queue hpx .reset) _ hinv hp
  · exact hp

theorem Picked.of_update {s' : Sem Task} {waker : Waker} {u : Task} {p : TaskPhase}
    (hp : s.Picked waker t) (hu : t ≠ u) (htasks : s'.tasks = update s.tasks u p) :
    s'.Picked waker t := by
  obtain ⟨w, hw, hup⟩ := hp
  exact ⟨w, (tasks_of_ne htasks hu).trans hw, hup⟩

omit [DecidableEq Task] in
theorem ne_of_running {waker : Waker} {u : Task} {last : Option ℤ} (hp : s.Picked waker t)
    (hu : s.tasks u = .running last) : t ≠ u := by
  rintro rfl
  exact not_picked_of_running hu waker hp

theorem tasks_leave (s : Sem Task) (u : Task) (w : Waiter) (r : DownResult) :
    (s.leave u w r).tasks = update s.tasks u (.running (some (w.call.result r))) := rfl

theorem tasks_downLoop (s : Sem Task) (u : Task) (w : Waiter) (pending : Bool) :
    ∃ p, (s.downLoop u w pending).tasks = update s.tasks u p := by
  rw [downLoop]
  split
  · exact ⟨_, tasks_leave s u w .eintr⟩
  split
  · exact ⟨_, tasks_leave s u w .etime⟩
  · exact ⟨_, rfl⟩

theorem tasks_cdcmDown (s : Sem Task) (u : Task) (call : DownCall) (timeout : ℤ)
    (pending : Bool) : ∃ p, (s.cdcmDown u call timeout pending).tasks = update s.tasks u p := by
  rw [Sem.cdcmDown]
  split
  · exact ⟨_, rfl⟩
  · exact tasks_downLoop _ u _ pending

theorem tasks_swait (s : Sem Task) (u : Task) (sig : SemSig) (pending : Bool) :
    ∃ p, (s.swait u sig pending).tasks = update s.tasks u p := by
  cases sig with
  | sigignore => exact tasks_cdcmDown s u .down 0 pending
  | sigretry => exact tasks_cdcmDown s u .downInterruptible 0 pending
  | sigabort => exact tasks_cdcmDown s u .downInterruptible 0 pending
  | other => exact ⟨_, rfl⟩

theorem tasks_tswait (msecsToJiffies : ℤ → ℤ) (s : Sem Task) (u : Task) (sig : SemSig)
    (interval : ℤ) (pending : Bool) :
    ∃ p, (s.tswait msecsToJiffies u sig interval pending).tasks = update s.tasks u p := by
  rw [Sem.tswait]
  split
  · rw [Sem.cdcmDownTrylock]
    split
    · exact ⟨_, rfl⟩
    · exact ⟨_, rfl⟩
  split
  · exact tasks_swait s u sig pending
  · exact tasks_cdcmDown s u .downTimeout _ pending

/-! ### What a section of a wait does -/

theorem cdcmDown_cases (s : Sem Task) (t : Task) (call : DownCall) (timeout : ℤ)
    (pending : Bool) :
    (0 < s.count.toNat ∧ s.cdcmDown t call timeout pending =
      { s with count := s.count - 1, acquired := s.acquired + 1 }.returns t (call.result .ok)) ∨
    (s.count.toNat = 0 ∧ ∃ r, r ≠ .ok ∧ s.cdcmDown t call timeout pending =
      { s with
        waitList := (s.waitList ++ [t]).erase t
        arrivals := s.arrivals + 1 }.returns t (call.result r)) ∨
    (s.count.toNat = 0 ∧ ∃ w : Waiter, w.call = call ∧ w.up = none ∧
      s.cdcmDown t call timeout pending =
        { s with
          waitList := s.waitList ++ [t]
          arrivals := s.arrivals + 1
          tasks := update s.tasks t (.sleeping w) }) := by
  rw [Sem.cdcmDown]
  split
  · rename_i hpos
    exact Or.inl ⟨hpos, rfl⟩
  · rename_i hzero
    have hcount := Nat.eq_zero_of_not_pos hzero
    right
    rw [Sem.downCommon, downLoop]
    split
    · exact Or.inl ⟨hcount, .eintr, by simp, rfl⟩
    split
    · exact Or.inl ⟨hcount, .etime, by simp, rfl⟩
    · exact Or.inr ⟨hcount, _, rfl, rfl, rfl⟩

theorem recheck_cases (s : Sem Task) (t : Task) {w : Waiter} (hup : w.up = none) (left : ℤ)
    (pending : Bool) :
    (∃ r, r ≠ .ok ∧ s.recheck t w left pending =
      { s with waitList := s.waitList.erase t }.returns t (w.call.result r)) ∨
    ∃ w' : Waiter, w'.call = w.call ∧ w'.up = none ∧
      s.recheck t w left pending = { s with tasks := update s.tasks t (.sleeping w') } := by
  simp only [Sem.recheck, hup, downLoop, leave]
  split
  · exact Or.inl ⟨.eintr, by simp, rfl⟩
  split
  · exact Or.inl ⟨.etime, by simp, rfl⟩
  · exact Or.inr ⟨{ w with timeout := scheduleTimeout w.timeout left, up := none }, rfl, rfl, rfl⟩

theorem result_ne_ok {call : DownCall} (hcall : call ≠ .down) {r : DownResult} (hr : r ≠ .ok) :
    call.result r ≠ lynxOk := by
  cases call with
  | down => exact absurd rfl hcall
  | downInterruptible => cases r <;> first | exact absurd rfl hr | decide
  | downTimeout => cases r <;> first | exact absurd rfl hr | decide

theorem result_interruptible {r : DownResult} (hr : r ≠ .ok) :
    DownCall.downInterruptible.result r = sysErr := by
  cases r with
  | ok => exact absurd rfl hr
  | etime => rfl
  | eintr => rfl

theorem swait_sigabort_cases (s : Sem Task) (t : Task) (pending : Bool) :
    (0 < s.count.toNat ∧ s.swait t .sigabort pending =
      { s with count := s.count - 1, acquired := s.acquired + 1 }.returns t lynxOk) ∨
    (s.count.toNat = 0 ∧ s.swait t .sigabort pending =
      { s with
        waitList := (s.waitList ++ [t]).erase t
        arrivals := s.arrivals + 1 }.returns t sysErr) ∨
    (s.count.toNat = 0 ∧ ∃ w : Waiter, w.call = .downInterruptible ∧ w.up = none ∧
      s.swait t .sigabort pending =
        { s with
          waitList := s.waitList ++ [t]
          arrivals := s.arrivals + 1
          tasks := update s.tasks t (.sleeping w) }) := by
  rw [Sem.swait]
  rcases cdcmDown_cases s t .downInterruptible 0 pending with h | ⟨hcount, r, hr, heq⟩ | h
  · exact Or.inl h
  · rw [result_interruptible hr] at heq
    exact Or.inr (Or.inl ⟨hcount, heq⟩)
  · exact Or.inr (Or.inr h)

theorem recheck_unmarked_cases (s : Sem Task) (t : Task) {w : Waiter}
    (hcall : w.call = .downInterruptible) (hup : w.up = none) (left : ℤ) (pending : Bool) :
    s.recheck t w left pending = { s with waitList := s.waitList.erase t }.returns t sysErr ∨
    ∃ w' : Waiter, w'.call = .downInterruptible ∧ w'.up = none ∧
      s.recheck t w left pending = { s with tasks := update s.tasks t (.sleeping w') } := by
  rcases recheck_cases s t hup left pending with ⟨r, hr, heq⟩ | ⟨w', hcall', hup', heq⟩
  · rw [hcall, result_interruptible hr] at heq
    exact Or.inl heq
  · exact Or.inr ⟨w', hcall'.trans hcall, hup', heq⟩

theorem result_ok (call : DownCall) : call.result .ok = lynxOk := by
  cases call <;> rfl

theorem recheck_of_up {w : Waiter} {waker : Waker} (hup : w.up = some waker) (left : ℤ)
    (pending : Bool) : (s.recheck t w left pending).tasks t = .running (some lynxOk) := by
  cases waker with
  | up =>
    simp only [Sem.recheck, hup, Sem.returns, update_self, result_ok]
  | reset =>
    simp only [Sem.recheck, hup, Sem.returns, update_self, result_ok]

/-! ### What an up does to the history and the waiters -/

theorem cdcmUp_history (s : Sem Task) :
    s.cdcmUp.ups = s.ups + 1 ∧ s.cdcmUp.acquired = s.acquired ∧
    s.cdcmUp.discarded = s.discarded ∧
    (s.count.toNat ≠ 2 ^ 32 - 1 → s.cdcmUp.wraps = s.wraps) := by
  rw [Sem.cdcmUp]
  split
  · refine ⟨rfl, rfl, rfl, fun hmax => ?_⟩
    rw [if_neg hmax]
    rfl
  · rename_i u rest hlist
    simp [Sem.cdcmUpWaiter, hlist]

/-- Between `s` and `s'` some waiters have been marked and no task did anything else. -/
def Marks (waker : Waker) (s s' : Sem Task) : Prop :=
  ∀ u, s'.tasks u = s.tasks u ∨ s'.tasks u = (s.tasks u).mark waker

theorem mark_mark (waker : Waker) (p : TaskPhase) : (p.mark waker).mark waker = p.mark waker := by
  cases p <;> rfl

omit [DecidableEq Task] in
theorem Marks.trans {waker : Waker} {s₁ s₂ s₃ : Sem Task} (h : Marks waker s₁ s₂)
    (h' : Marks waker s₂ s₃) : Marks waker s₁ s₃ := by
  intro u
  rcases h u with hu | hu <;> rcases h' u with hu' | hu'
  · exact Or.inl (hu'.trans hu)
  · exact Or.inr (by rw [hu', hu])
  · exact Or.inr (hu'.trans hu)
  · exact Or.inr (by rw [hu', hu, mark_mark])

omit [DecidableEq Task] in
theorem Marks.sleeping {waker : Waker} {s' : Sem Task} (h : Marks waker s s') {u : Task}
    {w' : Waiter} (hw' : s'.tasks u = .sleeping w') :
    ∃ w, s.tasks u = .sleeping w ∧ w'.call = w.call ∧ (w'.up = w.up ∨ w'.up = some waker) := by
  rcases h u with hu | hu
  · exact ⟨w', hu.symm.trans hw', rfl, Or.inl rfl⟩
  · cases hs : s.tasks u with
    | running last =>
      rw [hu, hs] at hw'
      cases hw'
    | sleeping w =>
      rw [hu, hs, TaskPhase.mark, TaskPhase.sleeping.injEq] at hw'
      exact ⟨w, rfl, hw' ▸ rfl, Or.inr (hw' ▸ rfl)⟩

omit [DecidableEq Task] in
theorem Marks.asleep {waker : Waker} {s' : Sem Task} (h : Marks waker s s') {u : Task}
    {w : Waiter} (hw : s.tasks u = .sleeping w) : ∃ w', s'.tasks u = .sleeping w' := by
  rcases h u with hu | hu
  · exact ⟨w, hu.trans hw⟩
  · rw [hw] at hu
    exact ⟨_, hu⟩

theorem marks_cdcmUpWaiter (s : Sem Task) (waker : Waker) :
    Marks waker s (s.cdcmUpWaiter waker) := by
  intro u
  rw [Sem.cdcmUpWaiter]
  split
  · exact Or.inl rfl
  · rename_i v rest hlist
    by_cases huv : u = v
    · subst huv
      exact Or.inr (update_self _ _ _)
    · exact Or.inl (update_of_ne huv _ _)

theorem marks_cdcmUp (s : Sem Task) : Marks .up s s.cdcmUp := by
  rw [Sem.cdcmUp]
  split
  · exact fun u => Or.inl rfl
  · exact marks_cdcmUpWaiter { s with ups := s.ups + 1 } .up

theorem marks_sreset (s : Sem Task) : Marks .reset s s.sreset := by
  have hiter : ∀ (n : ℕ) (x : Sem Task),
      Marks .reset x ((fun y => cdcmUpWaiter y .reset)^[n] x) := by
    intro n
    induction n with
    | zero => exact fun x u => Or.inl rfl
    | succ n ih => exact fun x => (marks_cdcmUpWaiter x .reset).trans (ih _)
  rw [Sem.sreset, sresetLocked]
  split
  · exact hiter _ s
  · exact fun u => Or.inl rfl

theorem count_sreset (s : Sem Task) : s.sreset.count.toNat = 0 := by
  have hkeep : ∀ x : Sem Task, (x.cdcmUpWaiter .reset).count = x.count := by
    intro x
    rw [Sem.cdcmUpWaiter]
    split <;> rfl
  have hiter : ∀ (n : ℕ) (x : Sem Task),
      ((fun y => cdcmUpWaiter y .reset)^[n] x).count = x.count := by
    intro n
    induction n with
    | zero => exact fun x => rfl
    | succ n ih => exact fun x => (ih _).trans (hkeep x)
  rw [Sem.sreset, sresetLocked]
  split
  · rename_i hzero
    rw [hiter, hzero]
  · rfl

theorem waitList_cdcmUpWaiter (s : Sem Task) (waker : Waker) :
    (s.cdcmUpWaiter waker).waitList = s.waitList.drop 1 := by
  rw [Sem.cdcmUpWaiter]
  split
  · rename_i hlist
    rw [hlist, List.drop_nil]
  · rename_i u rest hlist
    rw [hlist, List.drop_succ_cons, List.drop_zero]

theorem waitList_sreset (hinv : SemInv val s) : s.sreset.waitList = [] := by
  have hiter : ∀ (n : ℕ) (x : Sem Task),
      ((fun y => cdcmUpWaiter y .reset)^[n] x).waitList = x.waitList.drop n := by
    intro n
    induction n with
    | zero => exact fun x => List.drop_zero.symm
    | succ n ih =>
      intro x
      rw [iterate_succ_apply, ih, waitList_cdcmUpWaiter, List.drop_drop, Nat.add_comm]
  rw [Sem.sreset, sresetLocked]
  split
  · rw [hiter, List.drop_length]
  · rename_i hpos
    exact hinv.queue.excl (Nat.pos_of_ne_zero hpos)

theorem tasks_sreset (hnil : s.waitList = []) : s.sreset.tasks = s.tasks := by
  rw [Sem.sreset, sresetLocked]
  split
  · rw [hnil]
    rfl
  · rfl

theorem not_blocked_sreset (hinv : SemInv val s) : ¬ s.sreset.Blocked t := by
  rw [← hinv.sreset.queue.exact t, waitList_sreset hinv]
  exact List.not_mem_nil

theorem picked_up_sreset (hinv : SemInv val s) : s.sreset.Picked .up t ↔ s.Picked .up t := by
  refine ⟨?_, picked_sreset hinv⟩
  intro hp
  obtain ⟨w', hw', hup'⟩ := hp
  obtain ⟨w, hw, -, hup⟩ := (marks_sreset s).sleeping hw'
  rcases hup with hup | hup
  · exact ⟨w, hw, hup.symm.trans hup'⟩
  · cases hup.symm.trans hup'

theorem cdcmUp_cases (hinv : SemInv val s) :
    (s.waitList = [] ∧ s.cdcmUp.count = s.count + 1 ∧ s.cdcmUp.tasks = s.tasks) ∨
    ∃ u, s.Blocked u ∧ s.cdcmUp.count = s.count ∧ s.cdcmUp.Picked .up u ∧
      ∀ v, v ≠ u → s.cdcmUp.tasks v = s.tasks v := by
  rw [Sem.cdcmUp]
  split
  · rename_i hlist
    exact Or.inl ⟨hlist, rfl, rfl⟩
  · rename_i u rest hlist
    have hb := (hinv.queue.exact u).1 (hlist ▸ List.mem_cons_self)
    obtain ⟨w, hw, hup⟩ := hb
    refine Or.inr ⟨u, ⟨w, hw, hup⟩, ?_⟩
    have heq : ({ s with ups := s.ups + 1 }).cdcmUpWaiter .up =
        { s with
          ups := s.ups + 1
          waitList := rest
          tasks := update s.tasks u (.sleeping { w with up := some .up }) } := by
      simp only [Sem.cdcmUpWaiter, hlist, hw, TaskPhase.mark]
    rw [heq]
    refine ⟨rfl, ⟨_, update_self _ _ _, rfl⟩, ?_⟩
    intro v hv
    exact update_of_ne hv _ _

theorem Picked.step (hinv : SemInv val s) {waker : Waker} (hp : s.Picked waker t)
    {msecsToJiffies : ℤ → ℤ} {a : Section Task} {s' : Sem Task}
    (hs : semStep msecsToJiffies s a = some s') :
    s'.Picked waker t ∨ s'.tasks t = .running (some lynxOk) := by
  cases a with
  | swait u sig pending =>
    cases hu : s.tasks u with
    | running last =>
      simp only [semStep, hu, Option.some.injEq] at hs
      obtain ⟨p, htasks⟩ := tasks_swait s u sig pending
      exact Or.inl (hs ▸ hp.of_update (ne_of_running hp hu) htasks)
    | sleeping w => simp [semStep, hu] at hs
  | tswait u sig interval pending =>
    cases hu : s.tasks u with
    | running last =>
      simp only [semStep, hu, Option.some.injEq] at hs
      obtain ⟨p, htasks⟩ := tasks_tswait msecsToJiffies s u sig interval pending
      exact Or.inl (hs ▸ hp.of_update (ne_of_running hp hu) htasks)
    | sleeping w => simp [semStep, hu] at hs
  | recheck u left pending =>
    cases hu : s.tasks u with
    | running last => simp [semStep, hu] at hs
    | sleeping w =>
      simp only [semStep, hu, Option.some.injEq] at hs
      by_cases htu : t = u
      · subst htu
        obtain ⟨v, hv, hup⟩ := hp
        cases hu.symm.trans hv
        exact Or.inr (hs ▸ recheck_of_up hup left pending)
      · left
        have htasks : ∃ p, s'.tasks = update s.tasks u p := by
          rw [← hs, Sem.recheck]
          split
          · exact ⟨_, rfl⟩
          · exact ⟨_, rfl⟩
          · exact tasks_downLoop s u _ pending
        obtain ⟨p, htasks⟩ := htasks
        exact hp.of_update htu htasks
  | ssignal =>
    cases hs
    exact Or.inl (picked_cdcmUp hinv hp)
  | ssignaln count =>
    cases hs
    exact Or.inl (picked_iterate (fun _ hx => hx.cdcmUp) (fun _ hx hpx => picked_cdcmUp hx hpx)
      count.toNat hinv hp)
  | sreset =>
    cases hs
    exact Or.inl (picked_sreset hinv hp)
  | scount u =>
    cases hu : s.tasks u with
    | running last =>
      simp only [semStep, hu, Option.some.injEq] at hs
      exact Or.inl (hs ▸ hp.of_update (ne_of_running hp hu) rfl)
    | sleeping w => simp [semStep, hu] at hs

end Sem

/-! ### The laws of the semaphore -/

section Laws

variable {Task : Type*} [DecidableEq Task]

/-- **The semaphore over every run.**  Units and waiters exclude each other; the list is exactly
the blocked tasks, in arrival order; a marked task stays marked until it returns success; and the
initial value and the ups are the count, the waits with a unit of an up (those that have returned
and those marked), what the resets threw away, and `2^32` for each wrap of the count. -/
theorem sem_laws (msecsToJiffies : ℤ → ℤ) (val : BitVec 32) (s : Sem Task)
    (h : (semSystem msecsToJiffies val).Reach s) :
    (0 < s.count.toNat → s.waitList = []) ∧
    (∀ t, t ∈ s.waitList ↔ s.Blocked t) ∧ s.waitList.Nodup ∧
    s.waitList.Pairwise (fun a b => s.since a < s.since b) ∧
    (∀ t waker a s', s.Picked waker t → semStep msecsToJiffies s a = some s' →
      s'.Picked waker t ∨ s'.tasks t = .running (some lynxOk)) ∧
    (∃ n, Counts (s.Picked .up) n ∧
      val.toNat + s.ups =
        s.count.toNat + (s.acquired + n) + s.discarded + 2 ^ 32 * s.wraps) := by
  have hinv := Sem.semInv_of_reach h
  refine ⟨hinv.queue.excl, hinv.queue.exact, hinv.queue.nodup, hinv.queue.fifo, ?_, hinv.units⟩
  intro t waker a s' hp hs
  exact hp.step hinv hs

end Laws

/-- A task blocks, is marked by a signal and returns; then two units are thrown away. -/
theorem sem_laws_run :
    ∃ s : Sem ℕ, (semSystem (fun m => m) 0#32).Reach s ∧ s.tasks 7 = .running (some lynxOk) ∧
      s.discarded = 2 ∧ s.waitList.Nodup := by
  have hrun : ∃ s : Sem ℕ, System.runFun (semStep fun m => m) (Sem.start 0#32)
      [.swait 7 .sigabort false, .ssignal, .ssignaln 2, .sreset, .recheck 7 5 true] = some s ∧
      s.tasks 7 = .running (some lynxOk) ∧ s.discarded = 2 := ⟨_, rfl, by decide, by decide⟩
  obtain ⟨s, hs, htask, hdisc⟩ := hrun
  have hstart : (semSystem (fun m => m) 0#32).Reach (Sem.start 0#32 : Sem ℕ) :=
    System.Reach.init rfl
  have hreach : (semSystem (fun m => m) 0#32).Reach s := System.Reach.runFun hstart _ hs
  exact ⟨s, hreach, htask, hdisc, (sem_laws _ _ s hreach).2.2.1⟩

/-- A semaphore started at `2^32 - 1` loses all its units to one signal. -/
theorem sem_count_wraps :
    ¬ ∀ s : Sem ℕ, (semSystem (fun m => m) (BitVec.allOnes 32)).Reach s →
      ∃ n, Counts (s.Picked .up) n ∧
        (BitVec.allOnes 32).toNat + s.ups =
          s.count.toNat + (s.acquired + n) + s.discarded := by
  intro hall
  have hreach : (semSystem (fun m => m) (BitVec.allOnes 32)).Reach
      (Sem.start (BitVec.allOnes 32) : Sem ℕ).ssignal :=
    (System.Reach.init rfl).step (a := .ssignal) rfl
  obtain ⟨n, hn, hsum⟩ := hall _ hreach
  have hzero : n = 0 :=
    hn.unique
      (counts_zero fun _ => Sem.not_picked_of_running (rfl : _ = TaskPhase.running none) .up)
  rw [hzero] at hsum
  exact absurd hsum (by decide)

end KernelModules.Cdcm
