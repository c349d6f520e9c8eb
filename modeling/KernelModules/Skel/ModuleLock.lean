import KernelModules.Cdcm.Semaphore

/-!
# The module lock of the skeleton driver

`JTAG_OPEN` takes a module for one client and `JTAG_CLOSE` gives it back.  The lock is the CDCM
semaphore of the module, started at one unit when the module is installed.  `RESET` resets that
same semaphore and signals it once, and `JTAG_CLOSE` does all of `RESET` before it signals.

* `ModuleContext` is the semaphore with what every client is doing to it;
* `moduleStep` has one label for each critical section of the three ioctls;
* `LockInv` says that one unit is out, in the count, with a holder, on its way to a locker or owed
  by a reset under way.  It is kept by the steps that meet `Careful`: no module is closed, and one
  is reset only while nobody has it.  `lockModule_exclusive` is mutual exclusion over those runs,
  and `jtagClose_breaks_lock` what a single `JTAG_CLOSE` leads to.
-/

namespace KernelModules.Skel

open Function KernelModules.Lib KernelModules.Cdcm

variable {Client : Type*}

/-! ### The three ioctls -/

/-- What a client still has to do for the ioctl it is in: the signal of `Reset`, called from
`RESET` or from `JTAG_CLOSE`, or the signal of `UnLockModule`. -/
inductive Op where
  | idle
  | reset
  | close
  | unlock
  deriving DecidableEq, Repr

/-- The module's semaphore, its `FLASH_OPEN` status bit, the clients between a successful
`LockModule` and their `JTAG_CLOSE`, and the ioctls under way. -/
structure ModuleContext (Client : Type*) where
  semaphore : Sem Client
  flashOpen : Bool
  holds : Client → Bool
  op : Client → Op

variable [DecidableEq Client]

/-- The semaphore as the installation leaves it: reset, then signalled. -/
def installed : ModuleContext Client where
  semaphore := (Sem.start 0).sreset.ssignal
  flashOpen := false
  holds _ := false
  op _ := .idle

/-- `LockModule` up to its first sleep: without the timer it waits for ever. -/
def lockModule (msecsToJiffies : ℤ → ℤ) (s : Sem Client) (c : Client) (useTimer : Bool)
    (timeout : ℤ) (pending : Bool) : Sem Client :=
  let ticks := if useTimer && timeout ≠ 0 then timeout else -1
  s.tswait msecsToJiffies c .sigabort ticks pending

/-- `JTAG_OPEN` once `LockModule` has run a section: it has returned `OK`, failed or sleeps. -/
def ModuleContext.opened (m : ModuleContext Client) (c : Client) (sem : Sem Client) :
    ModuleContext Client :=
  match sem.tasks c with
  | .running (some v) =>
    if v = lynxOk then
      { m with semaphore := sem, flashOpen := true, holds := update m.holds c true }
    else { m with semaphore := sem }
  | _ => { m with semaphore := sem }

/-- One critical section of an ioctl of a client. -/
inductive LockCall (Client : Type*) where
  | jtagOpen (c : Client) (pending : Bool)
  | wake (c : Client) (left : ℤ) (pending : Bool)
  | reset (c : Client)
  | jtagClose (c : Client)
  | signal (c : Client)
  deriving DecidableEq, Repr

/-- A client is outside every ioctl. -/
def ModuleContext.Outside (m : ModuleContext Client) (c : Client) : Prop :=
  m.op c = .idle ∧ ∃ last, m.semaphore.tasks c = .running last

instance (m : ModuleContext Client) (c : Client) : Decidable (m.Outside c) :=
  match ht : m.semaphore.tasks c with
  | .running last =>
    decidable_of_iff (m.op c = .idle) ⟨fun h => ⟨h, last, ht⟩, fun h => h.1⟩
  | .sleeping _ => isFalse fun h => by
      obtain ⟨-, last, hl⟩ := h
      cases ht.symm.trans hl

/-- The ioctls, section by section; `JTAG_CLOSE` is issued only by a client that has the lock. -/
def moduleStep (msecsToJiffies : ℤ → ℤ) (timeout : ℤ) (m : ModuleContext Client) :
    LockCall Client → Option (ModuleContext Client)
  | .jtagOpen c pending =>
    if m.Outside c then
      some (m.opened c (lockModule msecsToJiffies m.semaphore c false timeout pending))
    else none
  | .wake c left pending =>
    match m.semaphore.tasks c with
    | .running _ => none
    | .sleeping w => some (m.opened c (m.semaphore.recheck c w left pending))
  | .reset c =>
    if m.Outside c then
      some { m with semaphore := m.semaphore.sreset, op := update m.op c .reset }
    else none
  | .jtagClose c =>
    if m.Outside c ∧ m.holds c = true then
      some
        { m with
          semaphore := m.semaphore.sreset
          flashOpen := false
          holds := update m.holds c false
          op := update m.op c .close }
    else none
  | .signal c =>
    match m.op c with
    | .idle => none
    | .reset => some { m with semaphore := m.semaphore.ssignal, op := update m.op c .idle }
    | .close => some { m with semaphore := m.semaphore.ssignal, op := update m.op c .unlock }
    | .unlock => some { m with semaphore := m.semaphore.ssignal, op := update m.op c .idle }

/-- Any clients, any order of their ioctls on an installed module. -/
def moduleSystem (msecsToJiffies : ℤ → ℤ) (timeout : ℤ) :
    System (ModuleContext Client) (LockCall Client) :=
  System.ofFun (· = installed) (moduleStep msecsToJiffies timeout)

/-- Mutual exclusion, and the count of a lock. -/
def Exclusive (m : ModuleContext Client) : Prop :=
  (∀ c c', m.holds c = true → m.holds c' = true → c = c') ∧ m.semaphore.count.toNat ≤ 1

/-- The runs the lock survives: nobody closes, and `RESET` finds the module free. -/
def Careful (m : ModuleContext Client) : LockCall Client → Prop
  | .jtagClose _ => False
  | .reset _ => m.semaphore.count.toNat = 1
  | _ => True

instance (m : ModuleContext Client) (a : LockCall Client) : Decidable (Careful m a) :=
  match a with
  | .jtagClose _ => inferInstanceAs (Decidable False)
  | .reset _ => inferInstanceAs (Decidable (m.semaphore.count.toNat = 1))
  | .jtagOpen _ _ => inferInstanceAs (Decidable True)
  | .wake _ _ _ => inferInstanceAs (Decidable True)
  | .signal _ => inferInstanceAs (Decidable True)

/-! ### One unit is out -/

/-- The holders have acquired, the resets under way have thrown a unit away, and nobody else did
either; no waiter was woken by a reset. -/
structure LockInv (m : ModuleContext Client) : Prop where
  sem : Sem.SemInv 0 m.semaphore
  waiters : ∀ c w, m.semaphore.tasks c = .sleeping w →
    w.call = .downInterruptible ∧ w.up ≠ some .reset
  ops : ∀ c, m.op c = .idle ∨ m.op c = .reset
  wraps : m.semaphore.wraps = 0
  holders : Counts (fun c => m.holds c = true) m.semaphore.acquired
  owed : ∃ n, Counts (fun c => m.op c = .reset) n ∧
    m.semaphore.discarded + 1 = m.semaphore.ups + n

omit [DecidableEq Client] in
theorem LockInv.unit {m : ModuleContext Client} (h : LockInv m) :
    ∃ k n, Counts (m.semaphore.Picked .up) k ∧ Counts (fun c => m.op c = .reset) n ∧
      m.semaphore.discarded + 1 = m.semaphore.ups + n ∧
      m.semaphore.count.toNat + m.semaphore.acquired + k + n = 1 := by
  obtain ⟨k, hk, hsum⟩ := h.sem.units
  obtain ⟨n, hn, howed⟩ := h.owed
  refine ⟨k, n, hk, hn, howed, ?_⟩
  have hzero : (0 : BitVec 32).toNat = 0 := rfl
  rw [h.wraps, hzero] at hsum
  omega

omit [DecidableEq Client] in
theorem LockInv.exclusive {m : ModuleContext Client} (h : LockInv m) : Exclusive m := by
  obtain ⟨k, n, -, -, -, hsum⟩ := h.unit
  refine ⟨?_, by omega⟩
  intro c c' hc hc'
  exact h.holders.eq_of_le_one (by omega) hc hc'

theorem lockInv_installed : LockInv (installed : ModuleContext Client) where
  sem := (Sem.semInv_start 0).sreset.cdcmUp
  waiters := by
    intro c w hw
    cases hw
  ops _ := Or.inl rfl
  wraps := rfl
  holders := counts_zero fun _ => Bool.false_ne_true
  owed := ⟨0, counts_zero fun _ => by simp [installed], rfl⟩

/-! ### Opening -/

section Open

variable {m : ModuleContext Client} {c : Client} {sem : Sem Client}

theorem opened_of_waiting {p : TaskPhase} (hp : p ≠ .running (some lynxOk))
    (htasks : sem.tasks c = p) : m.opened c sem = { m with semaphore := sem } := by
  rw [ModuleContext.opened, htasks]
  split
  · rename_i v
    rw [if_neg fun hv => hp (by rw [hv])]
  · rfl

theorem opened_of_ok (htasks : sem.tasks c = .running (some lynxOk)) :
    m.opened c sem =
      { m with semaphore := sem, flashOpen := true, holds := update m.holds c true } := by
  rw [ModuleContext.opened, htasks]
  rfl

theorem LockInv.wait (h : LockInv m) (hsem : Sem.SemInv 0 sem) {p : TaskPhase}
    (htasks : sem.tasks = update m.semaphore.tasks c p)
    (hp : ∀ w, p = .sleeping w → w.call = .downInterruptible ∧ w.up ≠ some .reset)
    (hacq : sem.acquired = m.semaphore.acquired) (hups : sem.ups = m.semaphore.ups)
    (hdisc : sem.discarded = m.semaphore.discarded) (hwraps : sem.wraps = m.semaphore.wraps) :
    LockInv { m with semaphore := sem } where
  sem := hsem
  waiters c' w hw := by
    by_cases hc : c' = c
    · subst hc
      exact hp w ((Sem.tasks_self htasks).symm.trans hw)
    · exact h.waiters c' w ((Sem.tasks_of_ne htasks hc).symm.trans hw)
  ops := h.ops
  wraps := hwraps.trans h.wraps
  holders := by
    show Counts _ sem.acquired
    rw [hacq]
    exact h.holders
  owed := by
    show ∃ n, _ ∧ sem.discarded + 1 = sem.ups + n
    rw [hups, hdisc]
    exact h.owed

theorem LockInv.take (h : LockInv m) (hsem : Sem.SemInv 0 sem)
    (hfree : m.semaphore.acquired = 0)
    (htasks : sem.tasks = update m.semaphore.tasks c (.running (some lynxOk)))
    (hacq : sem.acquired = m.semaphore.acquired + 1) (hups : sem.ups = m.semaphore.ups)
    (hdisc : sem.discarded = m.semaphore.discarded) (hwraps : sem.wraps = m.semaphore.wraps)
    (flash : Bool) :
    LockInv { m with semaphore := sem, flashOpen := flash, holds := update m.holds c true } where
  sem := hsem
  waiters c' w hw := by
    by_cases hc : c' = c
    · subst hc
      cases (Sem.tasks_self htasks).symm.trans hw
    · exact h.waiters c' w ((Sem.tasks_of_ne htasks hc).symm.trans hw)
  ops := h.ops
  wraps := hwraps.trans h.wraps
  holders := by
    have hholders := h.holders
    rw [hfree] at hholders
    show Counts _ sem.acquired
    rw [hacq, hfree]
    refine hholders.enter (hholders.none c) (update_self c true m.holds) ?_
    intro c' hc
    simp only [update_of_ne hc]
  owed := by
    show ∃ n, _ ∧ sem.discarded + 1 = sem.ups + n
    rw [hups, hdisc]
    exact h.owed

theorem LockInv.swait (h : LockInv m) (hout : m.Outside c) (pending : Bool) :
    LockInv (m.opened c (m.semaphore.swait c .sigabort pending)) := by
  obtain ⟨-, last, hlast⟩ := hout
  have hsem := h.sem.swait hlast .sigabort pending
  rcases Sem.swait_sigabort_cases m.semaphore c pending with
    ⟨hpos, heq⟩ | ⟨-, heq⟩ | ⟨-, w, hcall, hup, heq⟩
  · rw [opened_of_ok (by rw [heq]; exact update_self _ _ _)]
    obtain ⟨k, n, -, -, -, hsum⟩ := h.unit
    refine h.take hsem (by omega) ?_ ?_ ?_ ?_ ?_ true
    all_goals rw [heq]; rfl
  · rw [opened_of_waiting (p := .running (some sysErr)) (by decide)
      (by rw [heq]; exact update_self _ _ _)]
    refine h.wait (c := c) hsem (p := .running (some sysErr)) ?_ (by simp) ?_ ?_ ?_ ?_
    all_goals rw [heq]; rfl
  · rw [opened_of_waiting (p := .sleeping w) (by simp) (by rw [heq]; exact update_self _ _ _)]
    refine h.wait (c := c) hsem (p := .sleeping w) ?_ ?_ ?_ ?_ ?_ ?_
    · rw [heq]
    · intro w' hw'
      cases hw'
      exact ⟨hcall, by simp [hup]⟩
    all_goals rw [heq]

theorem LockInv.wake (h : LockInv m) {w : Waiter} (hw : m.semaphore.tasks c = .sleeping w)
    (left : ℤ) (pending : Bool) :
    LockInv (m.opened c (m.semaphore.recheck c w left pending)) := by
  obtain ⟨hcall, hreset⟩ := h.waiters c w hw
  have hsem := h.sem.recheck hw left pending
  cases hup : w.up with
  | some waker =>
    cases waker with
    | reset => exact absurd hup hreset
    | up =>
      have heq : m.semaphore.recheck c w left pending =
          { m.semaphore with acquired := m.semaphore.acquired + 1 }.returns c lynxOk := by
        simp only [Sem.recheck, hup, Sem.result_ok]
      obtain ⟨k, n, hk, -, -, hsum⟩ := h.unit
      have hpos := hk.pos ⟨w, hw, hup⟩
      rw [opened_of_ok (by rw [heq]; exact update_self _ _ _)]
      refine h.take hsem (by omega) ?_ ?_ ?_ ?_ ?_ true
      all_goals rw [heq]; rfl
  | none =>
    rcases Sem.recheck_unmarked_cases m.semaphore c hcall hup left pending with
      heq | ⟨w', hcall', hup', heq⟩
    · rw [opened_of_waiting (p := .running (some sysErr)) (by decide)
        (by rw [heq]; exact update_self _ _ _)]
      refine h.wait (c := c) hsem (p := .running (some sysErr)) ?_ (by simp) ?_ ?_ ?_ ?_
      all_goals rw [heq]; rfl
    · rw [opened_of_waiting (p := .sleeping w') (by simp) (by rw [heq]; exact update_self _ _ _)]
      refine h.wait (c := c) hsem (p := .sleeping w') ?_ ?_ ?_ ?_ ?_ ?_
      · rw [heq]
      · intro v hv
        cases hv
        exact ⟨hcall', by simp [hup']⟩
      all_goals rw [heq]

end Open

/-! ### Resetting a free module -/

theorem LockInv.reset {m : ModuleContext Client} (h : LockInv m) {c : Client}
    (hout : m.Outside c) (hfree : m.semaphore.count.toNat = 1) :
    LockInv { m with semaphore := m.semaphore.sreset, op := update m.op c .reset } := by
  have hsreset : m.semaphore.sreset =
      { m.semaphore with count := 0, discarded := m.semaphore.discarded + 1 } := by
    rw [Sem.sreset, Sem.sresetLocked, if_neg (by omega), hfree]
  refine ⟨h.sem.sreset, ?_, ?_, ?_, ?_, ?_⟩
  · rw [hsreset]
    exact h.waiters
  · intro c'
    by_cases hc : c' = c
    · subst hc
      exact Or.inr (update_self _ _ _)
    · simp only [update_of_ne hc]
      exact h.ops c'
  · rw [hsreset]
    exact h.wraps
  · rw [hsreset]
    exact h.holders
  · rw [hsreset]
    obtain ⟨n, hn, howed⟩ := h.owed
    refine ⟨n + 1, hn.enter ?_ (update_self _ _ _) ?_, ?_⟩
    · rw [hout.1]
      simp
    · intro c' hc
      simp only [update_of_ne hc]
    · dsimp only
      omega

theorem LockInv.signal {m : ModuleContext Client} (h : LockInv m) {c : Client}
    (hop : m.op c = .reset) :
    LockInv { m with semaphore := m.semaphore.ssignal, op := update m.op c .idle } := by
  obtain ⟨k, n, -, hn, howed, hsum⟩ := h.unit
  have hpos := hn.pos hop
  obtain ⟨hups, hacq, hdisc, hwraps⟩ := Sem.cdcmUp_history m.semaphore
  refine ⟨h.sem.cdcmUp, ?_, ?_, ?_, ?_, ?_⟩
  · intro c' w' hw'
    obtain ⟨w, hw, hcall, hup⟩ := (Sem.marks_cdcmUp m.semaphore).sleeping hw'
    obtain ⟨hcall', hup'⟩ := h.waiters c' w hw
    refine ⟨hcall.trans hcall', ?_⟩
    rcases hup with hup | hup
    · rwa [hup]
    · rw [hup]
      simp
  · intro c'
    by_cases hc : c' = c
    · subst hc
      exact Or.inl (update_self _ _ _)
    · simp only [update_of_ne hc]
      exact h.ops c'
  · exact (hwraps (by omega)).trans h.wraps
  · show Counts _ m.semaphore.cdcmUp.acquired
    rw [hacq]
    exact h.holders
  · obtain ⟨j, rfl⟩ := Nat.exists_eq_succ_of_ne_zero hpos.ne'
    refine ⟨j, hn.exit hop ?_ ?_, ?_⟩
    · simp only [update_self]
      simp
    · intro c' hc
      simp only [update_of_ne hc]
    · show m.semaphore.cdcmUp.discarded + 1 = m.semaphore.cdcmUp.ups + j
      rw [hdisc, hups]
      omega

/-! ### Whole runs -/

variable {msecsToJiffies : ℤ → ℤ} {timeout : ℤ}

theorem LockInv.step {m m' : ModuleContext Client} {a : LockCall Client} (h : LockInv m)
    (hok : Careful m a) (hs : moduleStep msecsToJiffies timeout m a = some m') : LockInv m' := by
  cases a with
  | jtagOpen c pending =>
    rw [moduleStep] at hs
    split at hs
    · rename_i hout
      cases hs
      exact h.swait hout pending
    · cases hs
  | wake c left pending =>
    rw [moduleStep] at hs
    split at hs
    · cases hs
    · rename_i w hw
      cases hs
      exact h.wake hw left pending
  | reset c =>
    rw [moduleStep] at hs
    split at hs
    · rename_i hout
      cases hs
      exact h.reset hout hok
    · cases hs
  | jtagClose c => exact absurd hok id
  | signal c =>
    rcases h.ops c with hop | hop
    · simp [moduleStep, hop] at hs
    · simp only [moduleStep, hop, Option.some.injEq] at hs
      exact hs ▸ h.signal hop

/-- **The module lock.**  In every run without a `JTAG_CLOSE` in which a `RESET` resets the
semaphore only while its count is one, at most one client has the module and the count is at
most one. -/
theorem lockModule_exclusive (msecsToJiffies : ℤ → ℤ) (timeout : ℤ) (m : ModuleContext Client)
    (h : (moduleSystem msecsToJiffies timeout).ReachUnder Careful m) : Exclusive m := by
  have hinv : LockInv m := by
    refine h.invariant ?_ ?_
    · intro m₀ hm₀
      exact hm₀ ▸ lockInv_installed
    · intro m₀ a m₁ hinv hok hs
      exact hinv.step hok hs
  exact hinv.exclusive

/-- A free module is reset, then client 0 opens it while client 1 waits. -/
theorem lockModule_exclusive_run :
    ∃ m : ModuleContext ℕ, (moduleSystem (fun t => t) 0).ReachUnder Careful m ∧
      m.holds 0 = true ∧ m.semaphore.waitList = [1] ∧ Exclusive m := by
  let f := @moduleStep ℕ _ (fun t => t) 0
  let m := System.runUnder f Careful installed
    [.reset 2, .signal 2, .jtagOpen 0 false, .jtagOpen 1 false]
  have hstart : (moduleSystem (fun t => t) 0).ReachUnder Careful (installed : ModuleContext ℕ) :=
    System.ReachUnder.init rfl
  have hm : (moduleSystem (fun t => t) 0).ReachUnder Careful m :=
    System.ReachUnder.runUnder hstart _
  exact ⟨m, hm, by decide, by decide, lockModule_exclusive _ _ m hm⟩

/-- One client opens and closes; then two clients have the module at once. -/
theorem jtagClose_breaks_lock :
    ¬ ∀ m : ModuleContext ℕ, (moduleSystem (fun t => t) 0).Reach m → Exclusive m := by
  intro hall
  have hrun : ∃ m : ModuleContext ℕ, System.runFun (moduleStep (fun t => t) 0) installed
      [.jtagOpen 0 false, .jtagClose 0, .signal 0, .signal 0, .jtagOpen 1 false,
        .jtagOpen 2 false] = some m ∧ m.holds 1 = true ∧ m.holds 2 = true :=
    ⟨_, rfl, by decide, by decide⟩
  obtain ⟨m, hm, h1, h2⟩ := hrun
  have hstart : (moduleSystem (fun t => t) 0).Reach (installed : ModuleContext ℕ) :=
    System.Reach.init rfl
  have heq := (hall m (System.Reach.runFun hstart _ hm)).1 1 2 h1 h2
  exact absurd heq (by decide)

end KernelModules.Skel
